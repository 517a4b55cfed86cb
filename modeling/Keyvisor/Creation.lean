import Keyvisor.ControlClient
import Keyvisor.Durability
import Keyvisor.Esapi
import Keyvisor.Foundation.Monitor
import Keyvisor.Runtime

/-!
# Creating a key

Executable translation of `create_key` in `keyvisor-cli/src/main.rs`: the argument
loop, the checks, and the order in which the PIN, the TPM and the store are used. What
the terminal and the environment answer is unconstrained; creating the TPM key and
saving the record are single operations here, with the translations of `generate` and
`save` behind them.

Four components that were written separately meet in a created record: the name limit
of the command line, the TPM template, the record format and the agent's choice of
digest and authorization. They agree: a created record is saved, listed, and accepted
by every check that signing makes before it uses the TPM.
-/

namespace Keyvisor.Creation

open Foundation Foundation.Text RecordCodec
open ControlClient (SecretInput setSecretInput)
open Foundation.Program (demand)

/-- What `create_key` asks of its environment. The directory of the store has one
meaning here, so the path that is found for it is not kept. -/
inductive Operation where
  | eprintln (line : String)
  | requireConfirmation (prompt : String)
  | readNewPin (keyName : String) (input : SecretInput)
  | connectTpm
  | generate (tpm : Esapi.EsapiTpm) (name : String) (algorithm : KeyAlgorithm) (authorization : TpmAuthorization)
  | storeDirectory
  | save (key : StoredKey)
  | println (line : String)
  deriving DecidableEq, Repr

/-- What is answered to each operation. -/
def Answer : Operation → Type
  | .eprintln _ => Unit
  | .requireConfirmation _ => Except String Unit
  | .readNewPin _ _ => Except String Bytes
  | .connectTpm => Except TpmError Esapi.EsapiTpm
  | .generate _ _ _ _ => Except TpmError (KeySummary × TpmObject)
  | .storeDirectory => Except String Unit
  | .save _ => Except StoreError Unit
  | .println _ => Unit

abbrev Action := Program Operation Answer

abbrev Routine := ExceptT String Action

/-! ## Arguments -/

/-- `char::is_whitespace`: the Unicode property `White_Space`. -/
def isWhitespace (character : Char) : Bool :=
  (9 ≤ character.toNat && character.toNat ≤ 13) || (0x2000 ≤ character.toNat && character.toNat ≤ 0x200a) ||
    character.toNat ∈ [0x20, 0x85, 0xa0, 0x1680, 0x2028, 0x2029, 0x202f, 0x205f, 0x3000]

/-- `str::trim`. -/
def trim (text : String) : String :=
  String.ofList ((text.toList.dropWhile isWhitespace).reverse.dropWhile isWhitespace).reverse

/-- What the arguments have set so far. -/
structure Options where
  name : Option String := none
  policy : Option KeyUsePolicy := none
  algorithm : KeyAlgorithm := .ecdsaNistP256
  confirmed : Bool := false
  secretInput : SecretInput := .auto
  deriving DecidableEq, Repr

/-- `os_text`. -/
def osText (value : Bytes) (label : String) : Except String String :=
  match fromUtf8 value with
  | some text => .ok text
  | none => .error (label ++ " is not valid UTF-8")

/-- The algorithm of an option value. -/
def algorithmNamed : Option String → Except String KeyAlgorithm
  | some "ecdsa-p256" => .ok .ecdsaNistP256
  | some "ecdsa-p384" => .ok .ecdsaNistP384
  | _ => .error "algorithm must be `ecdsa-p256` or `ecdsa-p384`"

/-- The policy of an option value. -/
def policyNamed : Option String → Except String KeyUsePolicy
  | some "none" => .ok .noPin
  | some "pin" => .ok .tpmPin
  | _ => .error "authorization must be `none` or `pin`"

/-- The loop over the arguments. An option that takes a value is not recognised as the
last argument. -/
def parseArguments : List Bytes → Options → Except String Options
  | [], options => .ok options
  | argument :: rest, options =>
    match fromUtf8 argument, rest with
    | some "--name", value :: later => do
      let name ← osText value "key name"
      parseArguments later { options with name := some (trim name) }
    | some "--algorithm", value :: later => do
      let algorithm ← algorithmNamed (fromUtf8 value)
      parseArguments later { options with algorithm }
    | some "--authorization", value :: later => do
      let policy ← policyNamed (fromUtf8 value)
      parseArguments later { options with policy := some policy }
    | some "--yes", later => parseArguments later { options with confirmed := true }
    | some "--pin-stdin", later => do
      let secretInput ← setSecretInput options.secretInput .stdin
      parseArguments later { options with secretInput }
    | some "--pinentry", later => do
      let secretInput ← setSecretInput options.secretInput .pinentry
      parseArguments later { options with secretInput }
    | some "--terminal", later => do
      let secretInput ← setSecretInput options.secretInput .terminal
      parseArguments later { options with secretInput }
    | _, _ => .error "invalid key create arguments"

/-- The trimmed name, present and bounded. -/
def requiredName (options : Options) : Except String String :=
  match options.name with
  | none => .error "--name is required"
  | some name =>
    if (utf8 name).isEmpty || 4 * 1024 < (utf8 name).length then
      .error "key name must be between 1 and 4096 bytes"
    else .ok name

/-- A policy has to be given. -/
def requiredPolicy (options : Options) : Except String KeyUsePolicy :=
  match options.policy with
  | some policy => .ok policy
  | none => .error "--authorization is required"

/-! ## The command -/

/-- A key without a PIN is confirmed, on the terminal or in advance. -/
def confirm (options : Options) (policy : KeyUsePolicy) : Routine Unit :=
  if policy = .noPin ∧ options.confirmed = false then do
    (liftM (Program.call (Operation.eprintln
      "No-PIN keys allow any process with access to SSH_AUTH_SOCK to request signatures.") : Action Unit) :
        Routine Unit)
    demand (fun message => message) (Program.call (Operation.requireConfirmation "Create this no-PIN key? [y/N] "))
  else pure ()

/-- A way to enter a PIN is chosen for a key with a PIN only. -/
def checkSecretInput (options : Options) (policy : KeyUsePolicy) : Except String Unit :=
  if policy = .noPin ∧ options.secretInput ≠ .auto then
    .error "PIN input options are valid only for PIN-protected keys"
  else .ok ()

/-- A new PIN is read for a key with a PIN. -/
def newPin (options : Options) (name : String) : KeyUsePolicy → Routine Bytes
  | .noPin => pure []
  | .tpmPin => demand (fun message => message) (Program.call (Operation.readNewPin name options.secretInput))

/-- The authorization of the new key. -/
def authorizationFor (pin : Bytes) : KeyUsePolicy → TpmAuthorization
  | .noPin => .none
  | .tpmPin => .pin pin

/-- Creating and saving the record under a checked name. -/
def createAndSave (name : String) (algorithm : KeyAlgorithm) (authorization : TpmAuthorization) : Routine Unit := do
  let tpm ← demand (fun error : TpmError => "cannot open the TPM: " ++ error.message)
    (Program.call Operation.connectTpm)
  let (summary, object) ← demand (fun error : TpmError => "cannot generate the TPM key: " ++ error.message)
    (Program.call (Operation.generate tpm name algorithm authorization))
  demand (fun message => message) (Program.call Operation.storeDirectory)
  demand (fun error : StoreError => "cannot persist the wrapped TPM key: " ++ error.message)
    (Program.call (Operation.save ⟨summary, object⟩))
  (liftM (Program.call (Operation.println summary.id.asStr) : Action Unit) : Routine Unit)

/-- `create_key`. -/
def createKey (arguments : List Bytes) : Routine Unit := do
  let options ← parseArguments arguments {}
  let name ← requiredName options
  let policy ← requiredPolicy options
  confirm options policy
  checkSecretInput options policy
  let pin ← newPin options name policy
  createAndSave name options.algorithm (authorizationFor pin policy)

/-! ## What the command does with the TPM's answer -/

/-- How far the command has come: the TPM has answered with a record, the store was found,
the record is saved, its identifier is printed. -/
inductive Stage where
  | begun
  | generated (key : StoredKey)
  | found (key : StoredKey)
  | saved (key : StoredKey)
  | printed (key : StoredKey)
  | failed
  deriving DecidableEq, Repr

/-- The stage after a step that may fail. -/
def Stage.unless {ε α : Type} (failed : Except ε α) (next : Stage) : Stage :=
  match failed with
  | .ok _ => next
  | .error _ => .failed

/-- The TPM is asked once, under a name that fits in a record. The record that it answers
with is the one that is saved, as soon as the store is found, and its identifier is printed
when it is. -/
def advance : Stage → Program.Exchange Operation Answer → Option Stage
  | .begun, ⟨.generate _ name _ _, answer⟩ =>
    if utf8 name ≠ [] ∧ (utf8 name).length ≤ maxTextLen then
      match (answer : Except TpmError (KeySummary × TpmObject)) with
      | .ok (summary, object) => some (.generated ⟨summary, object⟩)
      | .error _ => some .failed
    else none
  | .begun, ⟨.eprintln _, _⟩ => some .begun
  | .begun, ⟨.requireConfirmation _, _⟩ => some .begun
  | .begun, ⟨.readNewPin _ _, _⟩ => some .begun
  | .begun, ⟨.connectTpm, _⟩ => some .begun
  | .generated key, ⟨.storeDirectory, answer⟩ => some (.unless (show Except String Unit from answer) (.found key))
  | .found key, ⟨.save saved, answer⟩ =>
    if saved = key then some (.unless (show Except StoreError Unit from answer) (.saved key)) else none
  | .saved key, ⟨.println line, _⟩ => if line = key.summary.id.asStr then some (.printed key) else none
  | _, _ => none

/-- The command succeeds when it has printed, and fails when it has not got to a record or
could not save it. -/
def Ends : Stage → Except String Unit → Prop
  | .printed _, outcome => outcome = .ok ()
  | .begun, outcome => ∃ message, outcome = .error message
  | .failed, outcome => ∃ message, outcome = .error message
  | _, _ => False

/-- The name passed its check. -/
theorem requiredName_bounds {options : Options} {name : String} (passed : requiredName options = .ok name) :
    utf8 name ≠ [] ∧ (utf8 name).length ≤ maxTextLen := by
  unfold requiredName at passed
  split at passed
  · cases passed
  · split at passed
    · cases passed
    · rename_i bounded
      cases passed
      simpa [maxTextLen] using bounded

/-- The record that the TPM answers with is saved, or the command fails. -/
theorem createAndSave_complies {name : String} (fits : utf8 name ≠ [] ∧ (utf8 name).length ≤ maxTextLen)
    (algorithm : KeyAlgorithm) (authorization : TpmAuthorization) :
    Program.Complies advance .begun (createAndSave name algorithm authorization).run Ends := by
  refine Program.Complies.routine (Program.complies_demand (Program.complies_call fun answer => ⟨.begun, rfl, ?_⟩))
  cases (answer : Except TpmError Esapi.EsapiTpm) with
  | error error => exact ⟨_, rfl⟩
  | ok tpm =>
    refine Program.Complies.routine (Program.complies_demand (Program.complies_call fun answer => ?_))
    cases (answer : Except TpmError (KeySummary × TpmObject)) with
    | error error => exact ⟨.failed, if_pos fits, _, rfl⟩
    | ok created =>
      obtain ⟨summary, object⟩ := created
      refine ⟨.generated ⟨summary, object⟩, if_pos fits, Program.Complies.routine ?_⟩
      refine Program.complies_demand (Program.complies_call fun answer => ⟨_, rfl, ?_⟩)
      cases (answer : Except String Unit) with
      | error message => exact ⟨_, rfl⟩
      | ok _ =>
        refine Program.Complies.routine (Program.complies_demand (Program.complies_call fun answer => ?_))
        refine ⟨_, if_pos rfl, ?_⟩
        cases (answer : Except StoreError Unit) with
        | error error => exact ⟨_, rfl⟩
        | ok _ => exact Program.complies_observed (Program.complies_call fun _ => ⟨_, if_pos rfl, rfl⟩)

/-- The whole command keeps to the stages. -/
theorem createKey_complies (arguments : List Bytes) :
    Program.Complies advance .begun (createKey arguments).run Ends := by
  refine Program.Complies.routine (Program.complies_check ?_)
  cases parseArguments arguments {} with
  | error message => exact ⟨message, rfl⟩
  | ok options =>
    refine Program.continues_ok (Program.Complies.routine (Program.complies_check ?_))
    cases named : requiredName options with
    | error message => exact ⟨message, rfl⟩
    | ok name =>
      have fits := requiredName_bounds named
      refine Program.continues_ok (Program.Complies.routine (Program.complies_check ?_))
      cases requiredPolicy options with
      | error message => exact ⟨message, rfl⟩
      | ok policy =>
        have confirming : Program.Complies advance .begun (confirm options policy).run
            (fun stage _ => stage = .begun) := by
          unfold confirm
          split
          · refine Program.Complies.routine (Program.complies_observed (Program.complies_call fun _ => ?_))
            refine ⟨.begun, rfl, Program.continues_ok (Program.complies_demand (Program.complies_call fun _ => ?_))⟩
            exact ⟨.begun, rfl, rfl⟩
          · exact rfl
        refine Program.continues_ok (Program.Complies.routine (confirming.weaken ?_))
        rintro _ (message | _) rfl
        · exact ⟨message, rfl⟩
        refine Program.continues_ok (Program.Complies.routine (Program.complies_check ?_))
        cases checkSecretInput options policy with
        | error message => exact ⟨message, rfl⟩
        | ok _ =>
          refine Program.continues_ok (Program.Complies.routine ?_)
          cases policy with
          | noPin => exact createAndSave_complies fits _ _
          | tpmPin =>
            refine Program.complies_demand (Program.complies_call fun answer => ⟨.begun, rfl, ?_⟩)
            cases (answer : Except String Bytes) with
            | error message => exact ⟨message, rfl⟩
            | ok pin => exact createAndSave_complies fits _ _

/-- The store was found. -/
def foundStore : Program.Exchange Operation Answer := ⟨.storeDirectory, (.ok () : Except String Unit)⟩

/-- The record was saved. -/
def savedRecord (key : StoredKey) : Program.Exchange Operation Answer := ⟨.save key, (.ok () : Except StoreError Unit)⟩

/-- The identifier of the record was printed. -/
def printedId (key : StoredKey) : Program.Exchange Operation Answer := ⟨.println key.summary.id.asStr, ()⟩

/-- What has happened since the TPM answered with a record. -/
def Happened (key : StoredKey) : Stage → List (Program.Exchange Operation Answer) → Prop
  | .begun, _ => False
  | .generated other, later => other = key ∧ later = []
  | .found other, later => other = key ∧ later = [foundStore]
  | .saved other, later => other = key ∧ later = [foundStore, savedRecord key]
  | .printed other, later => other = key ∧ later = [foundStore, savedRecord key, printedId key]
  | .failed, later => savedRecord key ∉ later

/-- One more operation extends what has happened. -/
theorem happened_advance {key : StoredKey} {stage next : Stage} {exchange : Program.Exchange Operation Answer}
    {later : List (Program.Exchange Operation Answer)} (happened : Happened key stage later)
    (advanced : advance stage exchange = some next) : Happened key next (later ++ [exchange]) := by
  obtain ⟨operation, answer⟩ := exchange
  cases stage with
  | begun => exact happened.elim
  | generated other =>
    obtain ⟨rfl, rfl⟩ := happened
    cases operation with
    | storeDirectory =>
      cases (answer : Except String Unit) with
      | ok _ =>
        cases advanced
        exact ⟨rfl, rfl⟩
      | error message =>
        cases advanced
        intro impossible
        cases List.mem_singleton.mp impossible
    | _ => cases advanced
  | found other =>
    obtain ⟨rfl, rfl⟩ := happened
    cases operation with
    | save saved =>
      obtain ⟨rfl, answered⟩ := Option.ite_none_right_eq_some.mp advanced
      cases (answer : Except StoreError Unit) with
      | ok _ =>
        cases answered
        exact ⟨rfl, rfl⟩
      | error error =>
        cases answered
        intro impossible
        rcases List.mem_cons.mp impossible with same | same
        · cases same
        · cases List.mem_singleton.mp same
    | _ => cases advanced
  | saved other =>
    obtain ⟨rfl, rfl⟩ := happened
    cases operation with
    | println line =>
      obtain ⟨rfl, same⟩ := Option.ite_none_right_eq_some.mp advanced
      cases same
      exact ⟨rfl, rfl⟩
    | _ => cases advanced
  | printed other => cases advanced
  | failed => cases advanced

/-- What becomes of a record that the TPM has answered with: once the store is found the
next thing asked for is to save it, no other record is saved, and the command succeeds, with
its identifier printed, exactly when that save did. -/
structure Persists (key : StoredKey) (rest : Action (Except String Unit)) : Prop where
  saves : ∃ saving, Program.Follows rest [foundStore] (.ask (.save key) saving)
  only : ∀ later other saving, Program.Follows rest later (.ask (.save other) saving) →
    other = key ∧ later = [foundStore]
  prints : ∀ later line printing, Program.Follows rest later (.ask (.println line) printing) →
    line = key.summary.id.asStr ∧ later = [foundStore, savedRecord key]
  succeeds : ∀ later outcome, Program.Follows rest later (.done outcome) →
    (outcome = .ok () ↔ savedRecord key ∈ later) ∧
      (outcome = .ok () → later = [foundStore, savedRecord key, printedId key])

/-- Every operation has an answer. -/
theorem answer_exists (operation : Operation) : Nonempty (Answer operation) := by
  cases operation with
  | eprintln _ => exact ⟨()⟩
  | requireConfirmation _ => exact ⟨(.ok () : Except String Unit)⟩
  | readNewPin _ _ => exact ⟨(.ok [] : Except String Bytes)⟩
  | connectTpm => exact ⟨(.error .unavailable : Except TpmError Esapi.EsapiTpm)⟩
  | generate _ _ _ _ => exact ⟨(.error .unavailable : Except TpmError (KeySummary × TpmObject))⟩
  | storeDirectory => exact ⟨(.ok () : Except String Unit)⟩
  | save _ => exact ⟨(.ok () : Except StoreError Unit)⟩
  | println _ => exact ⟨()⟩

/-- With a record the program has not ended, and the store is all that it may ask for. -/
theorem asks_store {key : StoredKey} {rest : Action (Except String Unit)}
    (complies : Program.Complies advance (.generated key) rest Ends) : ∃ next, rest = .ask .storeDirectory next := by
  cases rest with
  | done outcome => exact absurd complies id
  | ask operation next =>
    obtain ⟨answer⟩ := answer_exists operation
    obtain ⟨_, advanced, _⟩ := complies answer
    cases operation with
    | storeDirectory => exact ⟨next, rfl⟩
    | _ => cases advanced

/-- With a store that was found it may only ask for the record to be saved. -/
theorem asks_save {key : StoredKey} {rest : Action (Except String Unit)}
    (complies : Program.Complies advance (.found key) rest Ends) : ∃ next, rest = .ask (.save key) next := by
  cases rest with
  | done outcome => exact absurd complies id
  | ask operation next =>
    obtain ⟨answer⟩ := answer_exists operation
    obtain ⟨_, advanced, _⟩ := complies answer
    cases operation with
    | save saved =>
      obtain ⟨rfl, _⟩ := Option.ite_none_right_eq_some.mp advanced
      exact ⟨next, rfl⟩
    | _ => cases advanced

/-- A program that keeps to the stages from a record on persists it. -/
theorem persists_of_complies {key : StoredKey} {rest : Action (Except String Unit)}
    (complies : Program.Complies advance (.generated key) rest Ends) : Persists key rest := by
  have reaches {later : List (Program.Exchange Operation Answer)} {remaining : Action (Except String Unit)}
      (followed : Program.Follows rest later remaining) :
      ∃ stage, Happened key stage later ∧ Program.Complies advance stage remaining Ends := by
    obtain ⟨stage, accepted, continues⟩ := complies.of_follows followed
    have start : Happened key (.generated key) [] := ⟨rfl, rfl⟩
    exact ⟨stage, Program.accepts_invariant (Happened key) start (fun _ _ _ _ => happened_advance) accepted, continues⟩
  constructor
  · obtain ⟨next, rfl⟩ := asks_store complies
    obtain ⟨_, advanced, continues⟩ := complies (.ok () : Except String Unit)
    cases advanced
    obtain ⟨saving, asked⟩ := asks_save continues
    exact ⟨saving, .step _ _ _ _ _ (asked ▸ .stop _)⟩
  · intro later other saving followed
    obtain ⟨stage, happened, continues⟩ := reaches followed
    obtain ⟨_, advanced, _⟩ := continues (.ok () : Except StoreError Unit)
    cases stage with
    | found saved =>
      obtain ⟨rfl, _⟩ := Option.ite_none_right_eq_some.mp advanced
      exact happened
    | _ => cases advanced
  · intro later line printing followed
    obtain ⟨stage, happened, continues⟩ := reaches followed
    obtain ⟨_, advanced, _⟩ := continues ()
    cases stage with
    | saved key =>
      obtain ⟨rfl, _⟩ := Option.ite_none_right_eq_some.mp advanced
      obtain ⟨rfl, rfl⟩ := happened
      exact ⟨rfl, rfl⟩
    | _ => cases advanced
  · intro later outcome followed
    obtain ⟨stage, happened, ends⟩ := reaches followed
    cases stage with
    | begun => exact happened.elim
    | printed other =>
      obtain ⟨rfl, rfl⟩ := happened
      obtain rfl : outcome = .ok () := ends
      exact ⟨⟨fun _ => by simp, fun _ => rfl⟩, fun _ => rfl⟩
    | failed =>
      obtain ⟨message, rfl⟩ : ∃ message, outcome = .error message := ends
      exact ⟨⟨nofun, fun saved => absurd saved happened⟩, nofun⟩
    | _ => exact absurd ends id

/-- When the command asks the TPM, its name fits in a record, and the record of the answer
persists. -/
theorem generate_reached {arguments : List Bytes} {transcript : List (Program.Exchange Operation Answer)}
    {tpm : Esapi.EsapiTpm} {name : String} {algorithm : KeyAlgorithm} {authorization : TpmAuthorization}
    {next : Except TpmError (KeySummary × TpmObject) → Action (Except String Unit)}
    (reached : Program.Follows (createKey arguments).run transcript
      (.ask (.generate tpm name algorithm authorization) next))
    (summary : KeySummary) (object : TpmObject) :
    (utf8 name ≠ [] ∧ (utf8 name).length ≤ maxTextLen) ∧ Persists ⟨summary, object⟩ (next (.ok (summary, object))) := by
  obtain ⟨stage, _, complies⟩ := (createKey_complies arguments).of_follows reached
  obtain ⟨generated, advanced, continues⟩ := complies (.ok (summary, object))
  cases stage with
  | begun =>
    obtain ⟨fits, same⟩ := Option.ite_none_right_eq_some.mp advanced
    cases same
    exact ⟨fits, persists_of_complies continues⟩
  | _ => cases advanced

end Keyvisor.Creation

namespace Keyvisor.Esapi

open Foundation Foundation.Text

/-! ## The TPM's part -/

/-- No TPM buffer that is stored here is empty or longer than its structure. -/
def Sized (bytes : Bytes) : Prop := bytes ≠ [] ∧ bytes.length < 2048

instance (bytes : Bytes) : Decidable (Sized bytes) := inferInstanceAs (Decidable (_ ∧ _))

/-- What a created record relies on in the conversions of the `tss-esapi` crate:
marshalling a public area and unmarshalling it are inverse and give a buffer of proper
size, and an authorization value of up to 64 bytes is accepted. -/
structure Conversions (tss : Tss) (builders : Builders) : Prop where
  unmarshall : ∀ area bytes, builders.marshall area = .ok bytes → tss.unmarshall bytes = some area
  sized : ∀ area bytes, builders.marshall area = .ok bytes → Sized bytes
  auth : ∀ bytes, bytes.length ≤ 64 → (tss.authOf bytes).isSome

/-- What it relies on in the TPM's answers: a wrapped private part is a value of its
bounded type, and so is a name. -/
def Proper (tss : Tss) : Program.Exchange Operation Answer → Prop
  | ⟨.create _ _ _ _, .ok created⟩ =>
    Sized (created : CreateKeyResult).outPrivate ∧ tss.privateOf created.outPrivate = some created.outPrivate
  | ⟨.trGetName _, .ok name⟩ => Sized (name : Bytes)
  | _ => True

/-- A session that ends in a value has run its operation to that value. -/
theorem withEncryptedSession_ok {α : Type} {saltKey : KeyHandle} {bind : Option KeyHandle}
    {operation : AuthSession → Routine Error α} {transcript : List (Program.Exchange Operation Answer)} {value : α}
    (followed : Program.Follows (withEncryptedSession saltKey bind operation).run transcript (.done (.ok value))) :
    ∃ session inner, Program.Follows (operation session).run inner (.done (.ok value)) ∧
      ∀ exchange ∈ inner, exchange ∈ transcript := by
  obtain ⟨_, answer, rest, rfl, _, afterStart⟩ := Program.follows_routine followed
  cases answer with
  | error error => cases afterStart.2
  | ok answer =>
    obtain ⟨_, _, rest, rfl, checked, afterCheck⟩ := Program.follows_routine afterStart
    obtain ⟨rfl, rfl⟩ := (Program.follows_check _ _ _).mp checked
    cases answer with
    | none => cases afterCheck.2
    | some session =>
      obtain ⟨_, attributes, rest, rfl, _, afterAttributes⟩ := Program.follows_routine afterCheck
      cases attributes with
      | error error => cases afterAttributes.2
      | ok _ =>
        obtain ⟨inner, _, rest, rfl, observed, afterwards⟩ := Program.follows_routine afterAttributes
        obtain ⟨outcome, rfl, runs⟩ := (Program.follows_observed _ _ _).mp observed
        obtain ⟨_, _, rest, rfl, flushed, ends⟩ := Program.follows_routine afterwards
        obtain ⟨flush, rfl, _⟩ := (Program.follows_observed _ _ _).mp flushed
        obtain ⟨_, settled⟩ := (Program.follows_check _ _ _).mp ends
        cases outcome with
        | error error => cases settled
        | ok result =>
          cases flush with
          | error error => cases settled
          | ok _ =>
            cases settled
            refine ⟨session, inner, runs, fun exchange member => ?_⟩
            simp [member]

/-- A created key: what the TPM answered and which checks that passed. -/
structure Created (tss : Tss) (builders : Builders) (tpm : EsapiTpm) (name : String) (algorithm : KeyAlgorithm)
    (area : Public) (childName : Bytes) (summary : KeySummary) (object : TpmObject) : Prop where
  checked : validatePublic tss area algorithm object.usePolicy = .ok ()
  blob : sshPublicKey area algorithm = .ok summary.publicKey
  marshalled : builders.marshall area = .ok object.public
  wrapped : Sized object.wrappedPrivate ∧ tss.privateOf object.wrappedPrivate = some object.wrappedPrivate
  named : Sized childName
  id : summary.id = ⟨hexText childName⟩
  name : summary.name = name
  algorithm : summary.algorithm = algorithm
  usePolicy : summary.usePolicy = object.usePolicy
  parentName : object.parentName = tpm.parentName

section

variable {tss : Tss} {builders : Builders} {tpm : EsapiTpm} {name : String} {algorithm : KeyAlgorithm}
  {authorization : TpmAuthorization} {summary : KeySummary} {object : TpmObject}

/-- The name of a child that was learned is one that the TPM answered. -/
theorem childName_proper (tss : Tss) {created : CreateKeyResult} {transcript : List (Program.Exchange Operation Answer)}
    {learned : Bytes} (followed : Program.Follows (childName tpm created).run transcript (.done (.ok learned)))
    (proper : ∀ exchange ∈ transcript, Proper tss exchange) : Sized learned := by
  obtain ⟨_, loaded, rest, rfl, _, afterLoad⟩ := Program.follows_routine followed
  cases loaded with
  | error error => cases afterLoad.2
  | ok child =>
    obtain ⟨_, _, rest, rfl, names, afterName⟩ := Program.follows_routine afterLoad
    obtain ⟨answer, rfl, asked⟩ := (Program.follows_adapt _ _ _ _).mp names
    obtain rfl := (Program.follows_call _ _ _).mp asked
    cases answer with
    | error error => cases afterName.2
    | ok answered =>
      obtain ⟨_, flushed, rest, rfl, _, ends⟩ := Program.follows_routine afterName
      cases flushed with
      | error error => cases ends.2
      | ok _ =>
        obtain ⟨_, same⟩ := (Program.follows_done _ _ _).mp ends
        cases same
        exact proper ⟨.trGetName child, .ok learned⟩ (by simp)

/-- What follows the creation ends in a key that passed every check. -/
theorem created_of_answer {answered : CreateKeyResult} {usePolicy : KeyUsePolicy}
    {transcript : List (Program.Exchange Operation Answer)}
    (wrapped : Sized answered.outPrivate ∧ tss.privateOf answered.outPrivate = some answered.outPrivate)
    (followed : Program.Follows (do
      validatePublic tss answered.outPublic algorithm usePolicy
      let publicKey ← sshPublicKey answered.outPublic algorithm
      let id ← childName tpm answered
      let «public» ← (builders.marshall answered.outPublic).mapError mapTssError
      return (
        { id := ⟨hexText id⟩, name, algorithm, usePolicy, publicKey },
        { «public», wrappedPrivate := answered.outPrivate, parentName := tpm.parentName, usePolicy }) :
        Routine TpmError (KeySummary × TpmObject)).run transcript (.done (.ok (summary, object))))
    (proper : ∀ exchange ∈ transcript, Proper tss exchange) :
    ∃ learned, Created tss builders tpm name algorithm answered.outPublic learned summary object := by
  obtain ⟨_, _, rest, rfl, checked, afterCheck⟩ := Program.follows_routine followed
  obtain ⟨rfl, rfl⟩ := (Program.follows_check _ _ _).mp checked
  cases valid : validatePublic tss answered.outPublic algorithm usePolicy with
  | error error =>
    rw [valid] at afterCheck
    cases afterCheck.2
  | ok _ =>
    rw [valid] at afterCheck
    obtain ⟨_, _, rest, rfl, encoded, afterBlob⟩ := Program.follows_routine afterCheck
    obtain ⟨rfl, rfl⟩ := (Program.follows_check _ _ _).mp encoded
    cases blob : sshPublicKey answered.outPublic algorithm with
    | error error =>
      rw [blob] at afterBlob
      cases afterBlob.2
    | ok publicKey =>
      rw [blob] at afterBlob
      obtain ⟨naming, learned, rest, rfl, names, afterName⟩ := Program.follows_routine afterBlob
      cases learned with
      | error error => cases afterName.2
      | ok learned =>
        have sized := childName_proper tss names fun exchange member => proper exchange (by simp [member])
        obtain ⟨_, _, rest, rfl, marshals, ends⟩ := Program.follows_routine afterName
        obtain ⟨rfl, rfl⟩ := (Program.follows_check _ _ _).mp marshals
        cases marshalled : builders.marshall answered.outPublic with
        | error error =>
          rw [marshalled] at ends
          cases ends.2
        | ok bytes =>
          rw [marshalled] at ends
          obtain ⟨_, same⟩ := (Program.follows_done _ _ _).mp ends
          cases same
          exact ⟨learned, valid, blob, marshalled, wrapped, sized, rfl, rfl, rfl, rfl, rfl⟩

/-- A key that `generate` returns is a created key. -/
theorem created_of_generate {transcript : List (Program.Exchange Operation Answer)}
    (followed : Program.Follows (generate tss builders tpm name algorithm authorization).run transcript
      (.done (.ok (summary, object))))
    (proper : ∀ exchange ∈ transcript, Proper tss exchange) :
    ∃ area learned, Created tss builders tpm name algorithm area learned summary object := by
  obtain ⟨_, capabilities, rest, rfl, _, afterCapability⟩ := Program.follows_routine followed
  cases capabilities with
  | error error => cases afterCapability.2
  | ok capabilities =>
    obtain ⟨_, _, rest, rfl, checked, afterCurve⟩ := Program.follows_routine afterCapability
    obtain ⟨rfl, rfl⟩ := (Program.follows_check _ _ _).mp checked
    cases curve : supportsCurve algorithm capabilities with
    | error error =>
      rw [curve] at afterCurve
      cases afterCurve.2
    | ok _ =>
      rw [curve] at afterCurve
      obtain ⟨_, _, rest, rfl, checked, afterValue⟩ := Program.follows_routine afterCurve
      obtain ⟨rfl, rfl⟩ := (Program.follows_check _ _ _).mp checked
      cases value : authorizationValue tss authorization with
      | error error =>
        rw [value] at afterValue
        cases afterValue.2
      | ok pair =>
        obtain ⟨auth, usePolicy⟩ := pair
        rw [value] at afterValue
        obtain ⟨_, _, rest, rfl, checked, afterTemplate⟩ := Program.follows_routine afterValue
        obtain ⟨rfl, rfl⟩ := (Program.follows_check _ _ _).mp checked
        cases template : createPublic tss builders algorithm usePolicy with
        | error error =>
          rw [template] at afterTemplate
          cases afterTemplate.2
        | ok requested =>
          rw [template] at afterTemplate
          obtain ⟨creating, outcome, rest, rfl, creates, afterCreate⟩ := Program.follows_routine afterTemplate
          obtain ⟨answer, rfl, session⟩ := (Program.follows_adapt _ _ _ _).mp creates
          cases answer with
          | error error => cases afterCreate.2
          | ok answered =>
            obtain ⟨session, inner, asked, within⟩ := withEncryptedSession_ok session
            obtain rfl := (Program.follows_call _ _ _).mp asked
            have wrapped := proper ⟨.create session tpm.parent requested auth, .ok answered⟩
              (by simp [within _ (List.mem_singleton.mpr rfl)])
            obtain ⟨learned, created⟩ := created_of_answer wrapped afterCreate fun exchange member =>
              proper exchange (by simp [member])
            exact ⟨_, learned, created⟩

/-- A padded value adds its width. -/
theorem length_appendPadded {output value padded : Bytes} {width : Nat}
    (fits : appendPadded output value width = .ok padded) : padded.length = output.length + width := by
  rw [appendPadded_eq] at fits
  split at fits
  · cases fits
    simp only [List.length_append, List.length_replicate]
    omega
  · cases fits

/-- The key blob of a point is a hundred bytes or so. -/
theorem length_sshPublicKey {area : Public} {blob : Bytes} (encoded : sshPublicKey area algorithm = .ok blob) :
    40 ≤ blob.length ∧ blob.length ≤ 200 := by
  unfold sshPublicKey at encoded
  split at encoded
  · obtain ⟨first, padded, encoded⟩ := (bind_eq_ok _ _ _).mp encoded
    obtain ⟨point, again, encoded⟩ := (bind_eq_ok _ _ _).mp encoded
    cases encoded
    have firstLength := length_appendPadded padded
    have pointLength := length_appendPadded again
    have names : (utf8 algorithm.sshKeyType).length = 19 ∧ (utf8 algorithm.sshCurveName).length = 8 := by
      cases algorithm <;> decide
    have width : algorithm.ecdsaComponentSize ≤ 48 := by cases algorithm <;> decide
    simp only [appendSshString, List.length_append, List.length_nil, BigEndian.length_encode, List.length_cons] at *
    omega
  · cases encoded

/-! ## Signing with a created key -/

/-- The errors of the crate are never reported as a refusal of the object or of the
authorization. -/
theorem mapTssError_ne (error : Error) :
    mapTssError error ≠ .invalidObject ∧ mapTssError error ≠ .invalidAuthorization := by
  cases error with
  | wrapperError => exact ⟨nofun, nofun⟩
  | tss2Error kind =>
    cases kind with
    | none => exact ⟨nofun, nofun⟩
    | some kind => cases kind <;> exact ⟨nofun, nofun⟩

/-- Signing gets as far as loading the object: once the session is open the object is
loaded, and no call that ends before it is loaded refuses it or the authorization. -/
def ReachesLoad (tss : Tss) (tpm : EsapiTpm) (object : TpmObject) (algorithm : KeyAlgorithm) (digest : Bytes)
    (authorization : TpmAuthorization) : Prop :=
  (∀ session, ∃ wrapped area next,
    Program.Follows (sign tss tpm object algorithm digest authorization).run
      [⟨.startAuthSession tpm.parent none, .ok (some session)⟩, ⟨.trSessSetAttributes session true true, .ok ()⟩]
      (.ask (.load session tpm.parent wrapped area) next)) ∧
  ∀ transcript error,
    Program.Follows (sign tss tpm object algorithm digest authorization).run transcript (.done (.error error)) →
    (∀ session parent wrapped area answer, ⟨.load session parent wrapped area, answer⟩ ∉ transcript) →
      error ≠ .invalidObject ∧ error ≠ .invalidAuthorization

/-- A call whose checks all pass begins with the session in which the object is
loaded. -/
theorem sign_checked {digest auth wrapped : Bytes} {area : Public}
    (length : digest.length = algorithm.digestSize)
    (value : authorizationValue tss authorization = .ok (auth, object.usePolicy))
    (parent : object.parentName = tpm.parentName) (unmarshalled : tss.unmarshall object.public = some area)
    (checked : validatePublic tss area algorithm object.usePolicy = .ok ())
    (converted : tss.privateOf object.wrappedPrivate = some wrapped) :
    sign tss tpm object algorithm digest authorization = (do
      let child ← mapped (withEncryptedSession tpm.parent none fun session =>
        contextLoad session tpm.parent wrapped area)
      let signature ← signLoaded tss tpm child auth algorithm digest
      rawSignature algorithm signature) := by
  have loads : load tss tpm object algorithm = mapped (withEncryptedSession tpm.parent none fun session =>
      contextLoad session tpm.parent wrapped area) := by
    unfold load
    rw [if_neg (not_not.mpr parent), unmarshalled, converted]
    show (liftM (validatePublic tss area algorithm object.usePolicy) : Routine TpmError Unit) >>= _ = _
    rw [checked]
    rfl
  unfold sign
  rw [if_neg (not_not.mpr length), value, ← loads]
  show (if object.usePolicy ≠ object.usePolicy then throw TpmError.invalidAuthorization else _) = _
  rw [if_neg (not_not.mpr rfl)]

/-- The guards that an object passes lead a request to its load. -/
theorem reachesLoad_of_checked {digest auth wrapped : Bytes} {area : Public}
    (length : digest.length = algorithm.digestSize)
    (value : authorizationValue tss authorization = .ok (auth, object.usePolicy))
    (parent : object.parentName = tpm.parentName) (unmarshalled : tss.unmarshall object.public = some area)
    (checked : validatePublic tss area algorithm object.usePolicy = .ok ())
    (converted : tss.privateOf object.wrappedPrivate = some wrapped) :
    ReachesLoad tss tpm object algorithm digest authorization := by
  rw [ReachesLoad, sign_checked length value parent unmarshalled checked converted]
  constructor
  · intro session
    exact ⟨wrapped, area, _, .step _ _ _ _ _ (.step _ _ _ _ _ (.stop _))⟩
  · intro transcript error followed unloaded
    obtain ⟨_, outcome, rest, rfl, loads, afterLoad⟩ := Program.follows_routine followed
    obtain ⟨answer, rfl, session⟩ := (Program.follows_adapt _ _ _ _).mp loads
    cases answer with
    | error reported =>
      cases afterLoad.2
      exact mapTssError_ne reported
    | ok child =>
      obtain ⟨session, inner, asked, within⟩ := withEncryptedSession_ok session
      obtain rfl := (Program.follows_call _ _ _).mp asked
      have loaded := within _ (List.mem_singleton.mpr rfl)
      exact absurd (List.mem_append_left _ loaded) (unloaded session tpm.parent wrapped area (.ok child))

end

end Keyvisor.Esapi

namespace Keyvisor.Creation

open Foundation Foundation.Text RecordCodec KeyStore Directory

/-! ## The created record -/

section

variable {tss : Esapi.Tss} {builders : Esapi.Builders} {tpm : Esapi.EsapiTpm} {name : String}
  {algorithm : KeyAlgorithm} {area : Esapi.Public} {childName : Bytes} {summary : KeySummary} {object : TpmObject}

/-- A created record passes the check of the store. -/
theorem validateRecord_created (conversions : Esapi.Conversions tss builders) (parent : Esapi.Sized tpm.parentName)
    (fits : utf8 name ≠ [] ∧ (utf8 name).length ≤ maxTextLen)
    (created : Esapi.Created tss builders tpm name algorithm area childName summary object) :
    validateRecord ⟨summary, object⟩ = .ok () := by
  obtain ⟨blobShort, blobLong⟩ := Esapi.length_sshPublicKey created.blob
  obtain ⟨publicFilled, publicShort⟩ := conversions.sized _ _ created.marshalled
  obtain ⟨⟨wrappedFilled, wrappedShort⟩, _⟩ := created.wrapped
  obtain ⟨nameFilled, nameShort⟩ := created.named
  obtain ⟨parentFilled, parentShort⟩ := parent
  have spelled : utf8 summary.id.asStr = hex childName := by
    rw [created.id]
    exact utf8_hexText childName
  have idLength : (utf8 summary.id.asStr).length = 2 * childName.length := by rw [spelled, length_hex]
  have idFilled : 0 < childName.length := List.length_pos_iff.mpr nameFilled
  have idPresent : (utf8 summary.id.asStr).isEmpty = false := by
    rw [List.isEmpty_eq_false_iff, ← List.length_pos_iff, idLength]
    omega
  have blobPresent : summary.publicKey.isEmpty = false := by
    rw [List.isEmpty_eq_false_iff, ← List.length_pos_iff]
    omega
  have limits : maxTextLen = 4096 ∧ maxBlobLen = 1048576 := ⟨rfl, rfl⟩
  have idBound : ¬ maxTextLen < (utf8 summary.id.asStr).length := by omega
  have nameBound : ¬ maxTextLen < (utf8 summary.name).length := by
    rw [created.name]
    omega
  have blobBound : ¬ maxBlobLen < summary.publicKey.length := by omega
  have publicBound : ¬ maxBlobLen < object.public.length := by omega
  have wrappedBound : ¬ maxBlobLen < object.wrappedPrivate.length := by omega
  have parentBound : ¬ maxBlobLen < object.parentName.length := by
    rw [created.parentName]
    omega
  have namePresent : (utf8 summary.name).isEmpty = false := by
    rw [created.name]
    exact List.isEmpty_eq_false_iff.mpr fits.1
  have parentPresent : object.parentName.isEmpty = false := by
    rw [created.parentName]
    exact List.isEmpty_eq_false_iff.mpr parentFilled
  unfold validateRecord
  rw [if_neg]
  simp only [idPresent, namePresent, idBound, nameBound, blobPresent, blobBound,
    List.isEmpty_eq_false_iff.mpr publicFilled, publicBound, List.isEmpty_eq_false_iff.mpr wrappedFilled,
    wrappedBound, parentPresent, parentBound, created.usePolicy, decide_false, bne_self_eq_false, Bool.or_self,
    Bool.false_eq_true, not_false_eq_true]

end

section

variable {key : StoredKey} (valid : validateRecord key = .ok ())

include valid

/-- A save of a valid record fails only with an error of the file system, whatever
that answers. -/
theorem save_fails_with_io {pid : UInt32}
    {transcript : List (Program.Exchange Directory.Operation Directory.Answer)} {error : StoreError}
    (followed : Program.Follows (KeyStore.save pid key).run transcript (.done (.error error))) :
    ∃ reported, error = .io reported := by
  have io {α : Type} {task : Task IoError α} {first : List (Program.Exchange Directory.Operation Directory.Answer)}
      {refused : StoreError}
      (ended : Program.Follows (reporting StoreError.io task).run first (.done (.error refused))) :
      ∃ reported, refused = .io reported := by
    obtain ⟨inner, same, _⟩ := (Program.follows_adapt _ _ _ _).mp ended
    cases inner with
    | ok value => cases same
    | error reported => exact ⟨reported, Except.error.inj same⟩
  obtain ⟨_, _, rest, rfl, checked, afterCheck⟩ := Program.follows_routine followed
  obtain ⟨rfl, rfl⟩ := (Program.follows_check _ _ _).mp checked
  rw [valid] at afterCheck
  obtain ⟨_, _, rest, rfl, encoded, afterEncode⟩ := Program.follows_routine afterCheck
  obtain ⟨rfl, rfl⟩ := (Program.follows_check _ _ _).mp encoded
  obtain ⟨bytes, encodes, _⟩ := valid_round_trip key valid
  rw [encodes] at afterEncode
  obtain ⟨_, prepared, rest, rfl, prepares, afterPrepare⟩ := Program.follows_routine afterEncode
  cases prepared with
  | error refused =>
    cases afterPrepare.2
    exact io prepares
  | ok _ =>
    obtain ⟨_, opened, rest, rfl, opens, afterOpen⟩ := Program.follows_routine afterPrepare
    cases opened with
    | error refused =>
      cases afterOpen.2
      exact io opens
    | ok temporary =>
      obtain ⟨_, _, rest, rfl, allocates, publishes⟩ := Program.follows_routine afterOpen
      obtain ⟨rfl, rfl⟩ := (Program.follows_check _ _ _).mp allocates
      cases temporary with
      | none =>
        cases publishes.2
        exact ⟨_, rfl⟩
      | some path => exact io publishes

/-- After a successful save every listing contains the record. -/
theorem listed_after_save {records : Records} {start : Place} (stored : Stored records start)
    {enumerate : List Name → List Name} {faults : Faults} {pid : UInt32}
    (saved : (executeFaulty enumerate faults (KeyStore.save pid key) start).1 = .ok ()) (enumeration : Enumeration) :
    ∃ keys, (execute enumeration.order KeyStore.list
        (executeFaulty enumerate faults (KeyStore.save pid key) start).2).1 = .ok keys ∧ key ∈ keys := by
  obtain ⟨_, keys, lists, members, _⟩ := (stored.saved valid saved).sees enumeration
  refine ⟨keys, by rw [lists], (members key).mpr ⟨key.summary.id, ?_⟩⟩
  rw [Function.update_self]

end

/-! ## The agent's request -/

/-- A signing command is over this digest. -/
def SignsDigest (digest : Bytes) : Runtime.Operation → Prop
  | .sign _ signed _ => signed = digest
  | _ => True

/-- A check signs nothing. -/
theorem check_issues (digest : Bytes) : Runtime.check.run.Issues (SignsDigest digest) :=
  (Program.issues_observed (Program.issues_call trivial)).routine fun cancelled =>
    Program.issues_check _ (Runtime.checkFlag cancelled)

/-- A request signs the digest of its data only. -/
theorem signWithKey_issues (settings : Runtime.Settings) (key : StoredKey) (data : Bytes) :
    (Runtime.signWithKey settings key data).run.Issues
      (SignsDigest (settings.digest key.summary.algorithm data)) := by
  have asking : (Runtime.pinFor key).run.Issues (SignsDigest (settings.digest key.summary.algorithm data)) := by
    unfold Runtime.pinFor
    split
    · trivial
    · exact Program.issues_adapt _ (Program.issues_call trivial)
  refine asking.routine fun pin => (check_issues _).routine fun _ =>
    (Program.issues_adapt _ (Program.issues_call trivial)).routine fun isOpen => ?_
  have connecting : (Runtime.connected isOpen).run.Issues
      (SignsDigest (settings.digest key.summary.algorithm data)) := by
    cases isOpen with
    | true => trivial
    | false => exact Program.issues_adapt _ (Program.issues_call trivial)
  have signing : SignsDigest (settings.digest key.summary.algorithm data)
      (.sign key (settings.digest key.summary.algorithm data) (Runtime.authorizationFor key pin)) := rfl
  exact connecting.routine fun _ => (Program.issues_adapt _ (Program.issues_call signing)).routine fun signature =>
    (check_issues _).routine fun _ => Program.issues_check _ _

/-- The chosen record is passed on, and a PIN is one that was delivered. -/
def Traced (key : StoredKey) (transcript : List (Program.Exchange Runtime.Operation Runtime.Answer)) :
    Runtime.Phase → Prop
  | .chosen chosen => chosen = key
  | .pinned chosen pin => chosen = key ∧
      ∃ keyName, ⟨.requestPin keyName, (.ok pin : Except String Bytes)⟩ ∈ transcript
  | .fresh => False
  | _ => True

/-- Every accepted exchange keeps the trace of the selected record. -/
theorem traced_advance {packet : Bytes} {key : StoredKey} {phase next : Runtime.Phase}
    {exchange : Program.Exchange Runtime.Operation Runtime.Answer}
    {earlier : List (Program.Exchange Runtime.Operation Runtime.Answer)} (traced : Traced key earlier phase)
    (advanced : Runtime.advance packet phase exchange = some next) : Traced key (earlier ++ [exchange]) next := by
  obtain ⟨operation, answer⟩ := exchange
  have later {phase : Runtime.Phase} (traced : Traced key earlier phase) :
      Traced key (earlier ++ [⟨operation, answer⟩]) phase := by
    cases phase with
    | pinned chosen pin =>
      obtain ⟨same, keyName, delivered⟩ := traced
      exact ⟨same, keyName, List.mem_append_left _ delivered⟩
    | _ => exact traced
  cases operation with
  | listKeys =>
    cases phase with
    | fresh => cases traced
    | _ => simp [Runtime.advance] at advanced
  | requestPin keyName =>
    cases phase with
    | chosen chosen =>
      cases (answer : Except String Bytes) with
      | ok pin =>
        simp only [Runtime.advance] at advanced
        split at advanced
        · cases advanced
          exact ⟨traced, keyName, List.mem_append_right _ (List.mem_singleton.mpr rfl)⟩
        · cases advanced
      | error message =>
        simp only [Runtime.advance] at advanced
        split at advanced
        · cases advanced
          trivial
        · cases advanced
    | _ => simp [Runtime.advance] at advanced
  | sign used digest authorization =>
    cases phase with
    | chosen chosen =>
      simp only [Runtime.advance] at advanced
      split at advanced
      · cases advanced
        trivial
      · cases advanced
    | pinned chosen pin =>
      simp only [Runtime.advance] at advanced
      split at advanced
      · cases advanced
        trivial
      · cases advanced
    | _ => simp [Runtime.advance] at advanced
  | _ =>
    cases advanced
    exact later traced

/-- A signing command of `sign_with_key` is for its record, over the digest of its
payload, with the authorization that its policy asks for. -/
theorem sign_asked {settings : Runtime.Settings} {key used : StoredKey} {data digest : Bytes}
    {authorization : TpmAuthorization} {transcript : List (Program.Exchange Runtime.Operation Runtime.Answer)}
    {next : Except TpmError Bytes → Runtime.Action (Except String Bytes)}
    (followed : Program.Follows (Runtime.signWithKey settings key data).run transcript
      (.ask (.sign used digest authorization) next)) :
    used = key ∧ digest = settings.digest key.summary.algorithm data ∧
      ((key.summary.usePolicy = .noPin ∧ authorization = .none) ∨
        (key.summary.usePolicy = .tpmPin ∧ ∃ keyName pin, authorization = .pin pin ∧
          ⟨.requestPin keyName, (.ok pin : Except String Bytes)⟩ ∈ transcript)) := by
  have digested : digest = settings.digest key.summary.algorithm data :=
    (signWithKey_issues settings key data).of_follows
      (followed.snoc (.error .unavailable)) ⟨.sign used digest authorization, .error .unavailable⟩ (by simp)
  obtain ⟨phase, accepted, complies⟩ := (Runtime.signWithKey_complies settings [] key data).of_follows followed
  have begins : Traced key [] (.chosen key) := rfl
  have traced : Traced key transcript phase :=
    Program.accepts_invariant (fun phase transcript => Traced key transcript phase) begins
      (fun _ _ _ _ traced advanced => traced_advance traced advanced) accepted
  obtain ⟨_, advanced, _⟩ := complies (.error .unavailable)
  cases phase with
  | chosen chosen =>
    obtain rfl : chosen = key := traced
    simp only [Runtime.advance] at advanced
    split at advanced
    · rename_i permitted
      obtain ⟨rfl, policy, authorized⟩ := permitted
      exact ⟨rfl, digested, .inl ⟨policy, authorized⟩⟩
    · cases advanced
  | pinned chosen pin =>
    obtain ⟨rfl, keyName, delivered⟩ := traced
    simp only [Runtime.advance] at advanced
    split at advanced
    · rename_i permitted
      obtain ⟨rfl, policy, authorized⟩ := permitted
      exact ⟨rfl, digested, .inr ⟨policy, keyName, pin, authorized, delivered⟩⟩
    · cases advanced
  | _ => simp [Runtime.advance] at advanced

/-- A record that can be saved, listed and signed with: it passes the check of the
store; saving it into a store succeeds, and fails only with an error of the file system
where operations fail; after a save into a well-formed store every listing contains it;
and every signing command that the agent issues for it, after a PIN of proper length if
its policy asks for one, is for this record and gets as far as loading its object on every
connection with the same parent. -/
structure Usable (tss : Esapi.Tss) (settings : Runtime.Settings) (key : StoredKey) : Prop where
  valid : validateRecord key = .ok ()
  kept : ∀ records place, Represents records place → ∀ enumerate pid, ∃ reached,
    execute enumerate (KeyStore.save pid key) place = (.ok (), reached) ∧
      Represents (Function.update records key.summary.id (some key)) reached
  saved : ∀ pid transcript error, Program.Follows (KeyStore.save pid key).run transcript (.done (.error error)) →
    ∃ reported, error = .io reported
  listed : ∀ records start, Stored records start → ∀ enumerate faults pid,
    (executeFaulty enumerate faults (KeyStore.save pid key) start).1 = .ok () →
    ∀ enumeration : Enumeration, ∃ keys, (execute enumeration.order KeyStore.list
      (executeFaulty enumerate faults (KeyStore.save pid key) start).2).1 = .ok keys ∧ key ∈ keys
  signs : ∀ data transcript used digest authorization next,
    Program.Follows (Runtime.signWithKey settings key data).run transcript
      (.ask (.sign used digest authorization) next) →
    (∀ keyName pin, ⟨.requestPin keyName, (.ok pin : Except String Bytes)⟩ ∈ transcript →
      6 ≤ pin.length ∧ pin.length ≤ 64) →
    used = key ∧ ∀ tpm : Esapi.EsapiTpm, tpm.parentName = key.object.parentName →
      Esapi.ReachesLoad tss tpm used.object used.summary.algorithm digest authorization

/-- An accepted PIN is converted, and is never taken for the policy without one. -/
theorem authorizationValue_pin {tss : Esapi.Tss} {builders : Esapi.Builders}
    (conversions : Esapi.Conversions tss builders) {pin : Bytes} (bounds : 6 ≤ pin.length ∧ pin.length ≤ 64) :
    ∃ auth, Esapi.authorizationValue tss (.pin pin) = .ok (auth, .tpmPin) := by
  obtain ⟨auth, accepted⟩ := Option.isSome_iff_exists.mp (conversions.auth pin bounds.2)
  refine ⟨auth, ?_⟩
  cases pin with
  | nil => exact absurd bounds.1 (by decide)
  | cons first rest => simp only [Esapi.authorizationValue, accepted]

/-- A created key is always usable. Take any arguments with which the command asks the
TPM for a key, and any TPM that answers it with one; of the crate's conversions and of
the TPM's answers only sizes and round trips are assumed, and of the digests their
lengths. Then the record that was answered persists: it is saved as soon as the store is
found, no other one is, and the command succeeds exactly when that save does; and the
record is usable. -/
theorem created_key_is_usable {tss : Esapi.Tss} {builders : Esapi.Builders}
    (conversions : Esapi.Conversions tss builders) {settings : Runtime.Settings}
    (digests : ∀ algorithm data, (settings.digest algorithm data).length = algorithm.digestSize)
    {arguments : List Bytes} {transcript : List (Program.Exchange Operation Answer)} {tpm : Esapi.EsapiTpm}
    {name : String} {algorithm : KeyAlgorithm} {authorization : TpmAuthorization}
    {next : Except TpmError (KeySummary × TpmObject) → Action (Except String Unit)}
    (reached : Program.Follows (createKey arguments).run transcript
      (.ask (.generate tpm name algorithm authorization) next))
    (parent : Esapi.Sized tpm.parentName)
    {commands : List (Program.Exchange Esapi.Operation Esapi.Answer)} {summary : KeySummary} {object : TpmObject}
    (generated : Program.Follows (Esapi.generate tss builders tpm name algorithm authorization).run commands
      (.done (.ok (summary, object))))
    (proper : ∀ exchange ∈ commands, Esapi.Proper tss exchange) :
    Persists ⟨summary, object⟩ (next (.ok (summary, object))) ∧ Usable tss settings ⟨summary, object⟩ := by
  obtain ⟨fits, persists⟩ := generate_reached reached summary object
  obtain ⟨area, learned, created⟩ := Esapi.created_of_generate generated proper
  have valid := validateRecord_created conversions parent fits created
  refine ⟨persists, valid, ?_, ?_, ?_, ?_⟩
  · intro records place represented enumerate pid
    exact execute_save enumerate pid ⟨summary, object⟩ valid represented
  · intro pid transcript error followed
    exact save_fails_with_io valid followed
  · intro records start stored enumerate faults pid saved enumeration
    exact listed_after_save valid stored saved enumeration
  · intro data transcript used digest asked next followed delivered
    obtain ⟨rfl, rfl, policies⟩ := sign_asked followed
    refine ⟨rfl, fun connection same => ?_⟩
    have value : ∃ auth, Esapi.authorizationValue tss asked = .ok (auth, object.usePolicy) := by
      have agree : summary.usePolicy = object.usePolicy := created.usePolicy
      rcases policies with ⟨policy, rfl⟩ | ⟨policy, keyName, pin, rfl, given⟩
      · exact ⟨[], by rw [← agree, show summary.usePolicy = .noPin from policy]; rfl⟩
      · rw [← agree, show summary.usePolicy = .tpmPin from policy]
        exact authorizationValue_pin conversions (delivered keyName pin given)
    obtain ⟨auth, value⟩ := value
    have checked : Esapi.validatePublic tss area summary.algorithm object.usePolicy = .ok () := by
      rw [created.algorithm]
      exact created.checked
    exact Esapi.reachesLoad_of_checked (digests _ _) value same.symm
      (conversions.unmarshall _ _ created.marshalled) checked created.wrapped.2

namespace Sample

open Esapi

/-- The base point of the curve, as the TPM returns its coordinates. -/
def pointX : Bytes :=
  [0x6b, 0x17, 0xd1, 0xf2, 0xe1, 0x2c, 0x42, 0x47, 0xf8, 0xbc, 0xe6, 0xe5, 0x63, 0xa4, 0x40, 0xf2,
    0x77, 0x03, 0x7d, 0x81, 0x2d, 0xeb, 0x33, 0xa0, 0xf4, 0xa1, 0x39, 0x45, 0xd8, 0x98, 0xc2, 0x96]

def pointY : Bytes :=
  [0x4f, 0xe3, 0x42, 0xe2, 0xfe, 0x1a, 0x7f, 0x9b, 0x8e, 0xe7, 0xeb, 0x4a, 0x7c, 0x0f, 0x9e, 0x16,
    0x2b, 0xce, 0x33, 0x57, 0x6b, 0x31, 0x5e, 0xce, 0xcb, 0xb6, 0x40, 0x68, 0x37, 0xbf, 0x51, 0xf5]

/-- The public area of a key without a PIN. -/
def area : Public := .ecc (requestedAttributes .noPin) .nistP256 (.ecDsa .sha256) pointX pointY

/-- Its structure on the wire: type, name algorithm, attributes, no policy, the
parameters, and the two coordinates. -/
def marshalledArea : Bytes :=
  [0x00, 0x23, 0x00, 0x0b, 0x00, 0x04, 0x04, 0x72, 0x00, 0x00, 0x00, 0x10, 0x00, 0x18, 0x00, 0x0b, 0x00, 0x03,
    0x00, 0x10] ++ [0x00, 0x20] ++ pointX ++ [0x00, 0x20] ++ pointY

/-- The conversions on this public area, and on buffers within their limits. -/
def tss : Tss where
  unmarshall bytes := if bytes = marshalledArea then some area else none
  privateOf bytes := if bytes.length ≤ 1024 then some bytes else none
  authOf bytes := if bytes.length ≤ 64 then some bytes else none
  digestOf bytes := if bytes.length ≤ 64 then .ok bytes else .error .wrapperError
  hashcheckTicket := .ok ()
  ecDsaScheme hash := .ok (.ecDsa hash)

def builders : Builders where
  objectAttributes attributes := .ok attributes
  eccParameters scheme curve := .ok (scheme, curve)
  publicArea attributes parameters := .ok (.ecc attributes parameters.2 parameters.1 [] [])
  marshall other := if other = area then .ok marshalledArea else .error .wrapperError

/-- The sample conversions read back what the sample builders make. -/
theorem conversions : Conversions tss builders where
  unmarshall other bytes marshalled := by
    simp only [builders] at marshalled
    split at marshalled
    · rename_i same
      cases marshalled
      simp only [tss, ↓reduceIte, same]
    · cases marshalled
  sized other bytes marshalled := by
    simp only [builders] at marshalled
    split at marshalled
    · cases marshalled
      decide +kernel
    · cases marshalled
  auth bytes short := by simp only [tss, short, ↓reduceIte, Option.isSome_some]

/-- Digests of proper length. -/
def settings : Runtime.Settings := ⟨fun algorithm _ => List.replicate algorithm.digestSize 9, false⟩

def tpm : EsapiTpm := ⟨⟨1⟩, [0x00, 0x0b] ++ List.replicate 32 5⟩

def arguments : List Bytes :=
  [utf8 "--name", utf8 " work ", utf8 "--authorization", utf8 "none", utf8 "--yes"]

/-- The answers of a TPM that creates the key. -/
def commands : List (Program.Exchange Esapi.Operation Esapi.Answer) :=
  [⟨.getCapability .nistP256, .ok (.eccCurves [.nistP256])⟩,
    ⟨.startAuthSession ⟨1⟩ none, .ok (some ⟨2⟩)⟩, ⟨.trSessSetAttributes ⟨2⟩ true true, .ok ()⟩,
    ⟨.create ⟨2⟩ ⟨1⟩ (.ecc (requestedAttributes .noPin) .nistP256 (.ecDsa .sha256) [] []) [],
      .ok ⟨List.replicate 126 7, area⟩⟩,
    ⟨.flushContext (.session ⟨2⟩), .ok ()⟩,
    ⟨.startAuthSession ⟨1⟩ none, .ok (some ⟨3⟩)⟩, ⟨.trSessSetAttributes ⟨3⟩ true true, .ok ()⟩,
    ⟨.load ⟨3⟩ ⟨1⟩ (List.replicate 126 7) area, .ok ⟨4⟩⟩, ⟨.flushContext (.session ⟨3⟩), .ok ()⟩,
    ⟨.trGetName ⟨4⟩, .ok ([0x00, 0x0b] ++ List.replicate 32 6)⟩, ⟨.flushContext (.key ⟨4⟩), .ok ()⟩]

/-- Entries in the order of the directory. -/
theorem perm_id (names : List Directory.Name) : (id names).Perm names := List.Perm.refl names

/-- The record that is returned. -/
def created : StoredKey where
  summary := {
    id := ⟨hexText ([0x00, 0x0b] ++ List.replicate 32 6)⟩
    name := "work"
    algorithm := .ecdsaNistP256
    usePolicy := .noPin
    publicKey := ((sshPublicKey area .ecdsaNistP256).toOption).getD [] }
  object := ⟨marshalledArea, List.replicate 126 7, tpm.parentName, .noPin⟩

end Sample

/-- A key that was created on such a TPM is saved and usable: the command asks for its
record to be saved and ends well, and after a save into a missing store the listing
contains it. -/
theorem sample_key_is_usable : ∃ next,
    Program.Follows (createKey Sample.arguments).run [⟨.connectTpm, .ok Sample.tpm⟩]
      (.ask (.generate Sample.tpm "work" .ecdsaNistP256 .none) next) ∧
    Persists Sample.created (next (.ok (Sample.created.summary, Sample.created.object))) ∧
    Program.Follows (next (.ok (Sample.created.summary, Sample.created.object)))
      [foundStore, savedRecord Sample.created, printedId Sample.created] (.done (.ok ())) ∧
    Usable Sample.tss Sample.settings Sample.created ∧
    (executeFaulty id (fun _ => none) (KeyStore.save 7 Sample.created) .absent).1 = .ok () ∧
    ∃ keys, (execute id KeyStore.list
      (executeFaulty id (fun _ => none) (KeyStore.save 7 Sample.created) .absent).2).1 = .ok keys ∧
        Sample.created ∈ keys := by
  have digests (algorithm : KeyAlgorithm) (data : Bytes) :
      (Sample.settings.digest algorithm data).length = algorithm.digestSize := List.length_replicate
  have reached : Program.Follows (createKey Sample.arguments).run [⟨.connectTpm, .ok Sample.tpm⟩]
      (.ask (.generate Sample.tpm "work" .ecdsaNistP256 .none) _) := (Program.follow_eq_some _ _ _).mp rfl
  have generated : Program.Follows
      (Esapi.generate Sample.tss Sample.builders Sample.tpm "work" .ecdsaNistP256 .none).run Sample.commands
      (.done (.ok (Sample.created.summary, Sample.created.object))) := (Program.follow_eq_some _ _ _).mp rfl
  have wrapped : Esapi.Sized (List.replicate 126 7) ∧
      Sample.tss.privateOf (List.replicate 126 7) = some (List.replicate 126 7) := by decide +kernel
  have named : Esapi.Sized ([0x00, 0x0b] ++ List.replicate 32 6) := by decide +kernel
  have proper : ∀ exchange ∈ Sample.commands, Esapi.Proper Sample.tss exchange := by
    simp only [Sample.commands, List.forall_mem_cons]
    exact ⟨trivial, trivial, trivial, wrapped, trivial, trivial, trivial, trivial, trivial, named, trivial,
      fun _ impossible => absurd impossible List.not_mem_nil⟩
  obtain ⟨persists, usable⟩ :=
    created_key_is_usable Sample.conversions digests reached (by decide +kernel) generated proper
  have saves : (executeFaulty id (fun _ => none) (KeyStore.save 7 Sample.created) .absent).1 = .ok () := by
    decide +kernel
  refine ⟨_, reached, persists, (Program.follow_eq_some _ _ _).mp rfl, usable, saves, ?_⟩
  exact usable.listed _ _ stored_absent id (fun _ => none) 7 saves ⟨id, Sample.perm_id⟩

end Keyvisor.Creation
