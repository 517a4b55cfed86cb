import Keyvisor.Agent

/-!
# What the signing history says

A request for a signature is recorded after it was served and before it is answered,
with the record that was selected and the outcome that is returned. A monitor of
`handle` follows a request up to its entry and allows nothing after it, so the
entries and the answers of any number of requests agree at every moment.
-/

namespace Keyvisor.Journal

open Foundation RecordCodec Protocol History Keyvisor.Runtime
open Foundation.Program (demand)

/-- The answer is a signature frame. -/
def Signed (result : Except String Bytes) : Prop :=
  ∃ bytes, result = .ok bytes ∧ Framed ssh2AgentSignResponse bytes

instance (result : Except String Bytes) : Decidable (Signed result) :=
  match result with
  | .ok bytes => decidable_of_iff (Framed ssh2AgentSignResponse bytes)
      ⟨fun framed => ⟨bytes, rfl, framed⟩, fun ⟨_, same, framed⟩ => Except.ok.inj same ▸ framed⟩
  | .error _ => .isFalse fun ⟨_, impossible, _⟩ => nomatch impossible

/-- A frame has one type. -/
theorem framed_unique {first second : UInt8} {bytes : Bytes} (framed : Framed first bytes)
    (alsoFramed : Framed second bytes) : first = second := by
  obtain ⟨body, _, spelled⟩ := framed
  obtain ⟨other, _, alsoSpelled⟩ := alsoFramed
  have fields := spelled.symm.trans alsoSpelled
  have payloads := List.append_inj_right fields (by simp)
  exact (List.cons.inj payloads).1

/-- An error signs nothing. -/
theorem not_signed_error (message : String) : ¬ Signed (.error message) := by
  rintro ⟨bytes, impossible, _⟩
  cases impossible

/-- An identities frame is no signature. -/
theorem not_signed_identities {keys : List KeySummary} {report : ProtocolError → String} :
    ¬ Signed ((identitiesResponse keys).mapError report) := by
  rintro ⟨bytes, encoded, framed⟩
  have identities := framed_identitiesResponse ((mapError_eq_ok _ _ _).mp encoded)
  exact absurd (framed_unique framed identities) (by decide)

/-! ## The order of operations -/

/-- How far a request has come on its way into the history. -/
inductive Stage where
  | fresh
  | stopped
  | begun
  | unlisted
  | listed (keys : List StoredKey)
  | logged (keys : List StoredKey) (entry : HistoryEntry)

/-- The entry is about the record that the listing selects. -/
def describes (packet : Bytes) (keys : List StoredKey) (entry : HistoryEntry) : Bool :=
  match selected packet keys with
  | some key => entry = historyEntry entry.timestampSeconds key entry.outcome
  | none => false

/-- After the first check comes the listing, then commands for the selected record
only, and last its entry. -/
def advance (packet : Bytes) (stage : Stage) : Program.Exchange Operation Answer → Option Stage
  | ⟨.cancelled, answer⟩ =>
    match stage, (answer : Bool) with
    | .fresh, true => some .stopped
    | .fresh, false => some .begun
    | .listed keys, _ => some (.listed keys)
    | _, _ => none
  | ⟨.listKeys, answer⟩ =>
    match stage, (answer : Except StoreError (List StoredKey)) with
    | .begun, .ok keys => some (.listed keys)
    | .begun, .error _ => some .unlisted
    | _, _ => none
  | ⟨.sign used _ _, _⟩ =>
    match stage with
    | .listed keys => if selected packet keys = some used then some (.listed keys) else none
    | _ => none
  | ⟨.appendHistory entry, _⟩ =>
    match stage with
    | .listed keys => if describes packet keys entry then some (.logged keys entry) else none
    | _ => none
  | _ =>
    match stage with
    | .listed keys => some (.listed keys)
    | _ => none

/-- How the end of a request stands to its entry. -/
def Ends (packet : Bytes) : Stage → Except String Bytes → Prop
  | .fresh, _ => False
  | .stopped, result => ¬ Signed result
  | .begun, result => (∀ keys, selected packet keys = none) ∧ ¬ Signed result
  | .unlisted, result => ¬ Signed result
  | .listed keys, result => selected packet keys = none ∧ ¬ Signed result
  | .logged _ entry, result => entry.outcome = .succeeded ↔ Signed result

section

variable {packet : Bytes} {keys : List StoredKey} {key : StoredKey}

/-- A later cancellation check leaves the stage alone. -/
theorem check_listed {post : Stage → Except String Unit → Prop} (passes : post (.listed keys) (.ok ()))
    (fails : ∀ message, post (.listed keys) (.error message)) :
    Program.Complies (advance packet) (.listed keys) check.run post := by
  refine Program.Complies.routine (Program.complies_observed (Program.complies_call fun cancelled => ?_))
  refine ⟨.listed keys, rfl, Program.continues_ok (Program.complies_check ?_)⟩
  cases cancelled with
  | true => exact fails _
  | false => exact passes

/-- Serving the selected record stays at its listing, and a success is a signature. -/
def Served (keys : List StoredKey) (stage : Stage) (result : Except String Bytes) : Prop :=
  stage = .listed keys ∧ ∀ bytes, result = .ok bytes → Signed (.ok bytes)

/-- A failed request stays at its listing. -/
theorem served_error (message : String) : Served keys (.listed keys) (.error message) := ⟨rfl, nofun⟩

/-- Signing and framing serve the selected record. -/
theorem signAndFrame_served (chosen : selected packet keys = some key) (digest : Bytes)
    (authorization : TpmAuthorization) :
    Program.Complies (advance packet) (.listed keys) (signAndFrame key digest authorization).run (Served keys) := by
  refine Program.Complies.routine (Program.complies_demand (Program.complies_call fun answer => ?_))
  refine ⟨.listed keys, by simp only [advance, chosen, ↓reduceIte], ?_⟩
  cases (answer : Except TpmError Bytes) with
  | error error => exact served_error _
  | ok signature =>
    refine Program.Complies.routine (check_listed (Program.continues_ok ?_) served_error)
    refine Program.complies_check ⟨rfl, fun bytes encoded => ⟨bytes, rfl, ?_⟩⟩
    exact framed_ecdsaSignatureResponse ((mapError_eq_ok _ _ _).mp encoded)

/-- A signature is made with the selected record. -/
theorem signWithKey_served (settings : Settings) (chosen : selected packet keys = some key) (data : Bytes) :
    Program.Complies (advance packet) (.listed keys) (signWithKey settings key data).run (Served keys) := by
  have authorized (pin : Bytes) : Program.Complies (advance packet) (.listed keys) (do
      check
      let isOpen ← demand (fun _ : Unit => "TPM signer state is unavailable") (Program.call Operation.lockTpm)
      connected isOpen
      signAndFrame key (settings.digest key.summary.algorithm data) (authorizationFor key pin) :
        Routine String Bytes).run (Served keys) := by
    refine Program.Complies.routine (check_listed (Program.continues_ok ?_) served_error)
    refine Program.Complies.routine (Program.complies_demand (Program.complies_call fun answer => ⟨_, rfl, ?_⟩))
    cases (answer : Except Unit Bool) with
    | error _ => exact served_error _
    | ok isOpen =>
      refine Program.Complies.routine ?_
      cases isOpen with
      | true => exact signAndFrame_served chosen _ _
      | false =>
        refine Program.complies_demand (Program.complies_call fun answer => ⟨_, rfl, ?_⟩)
        cases (answer : Except TpmError Unit) with
        | error error => exact served_error _
        | ok _ => exact signAndFrame_served chosen _ _
  refine Program.Complies.routine ?_
  unfold pinFor
  cases key.summary.usePolicy with
  | noPin => exact authorized []
  | tpmPin =>
    refine Program.complies_demand (Program.complies_call fun answer => ⟨_, rfl, ?_⟩)
    cases (answer : Except String Bytes) with
    | error message => exact served_error _
    | ok pin => exact authorized pin

/-- The entry of the selected record describes the request. -/
theorem describes_historyEntry (chosen : selected packet keys = some key) (timestamp : UInt64)
    (outcome : HistoryOutcome) : describes packet keys (historyEntry timestamp key outcome) = true := by
  simp only [describes, chosen]
  exact decide_eq_true rfl

/-- The outcome is a success exactly when the request was signed. -/
theorem outcomeOf_succeeded {result : Except String Bytes}
    (signs : ∀ bytes, result = .ok bytes → Signed (.ok bytes)) : outcomeOf result = .succeeded ↔ Signed result := by
  cases result with
  | error message => exact ⟨nofun, fun signed => absurd signed (not_signed_error message)⟩
  | ok bytes => exact ⟨fun _ => signs bytes rfl, fun _ => rfl⟩

end

section

variable {settings : Settings} {packet : Bytes}

/-- With a history a signature request ends with its entry. -/
theorem serveSign_ends (enabled : settings.historyEnabled = true) {publicKey data : Bytes} {flags : UInt32}
    (parsed : parseRequest packet = .ok (.sign publicKey data flags)) :
    Program.Complies (advance packet) .begun (serveSign settings publicKey data flags).run (Ends packet) := by
  unfold serveSign
  split
  · rename_i flagged
    refine ⟨fun keys => ?_, not_signed_error _⟩
    simp only [selected, parsed, if_neg flagged]
  · rename_i plain
    obtain rfl := not_not.mp plain
    refine Program.Complies.routine (Program.complies_demand (Program.complies_call fun answer => ?_))
    cases (answer : Except StoreError (List StoredKey)) with
    | error error => exact ⟨.unlisted, rfl, not_signed_error _⟩
    | ok keys =>
      refine ⟨.listed keys, rfl, Program.continues_ok (Program.Complies.routine (Program.complies_check ?_))⟩
      rw [findKey_selected parsed]
      cases chosen : selected packet keys with
      | none => exact ⟨chosen, not_signed_error _⟩
      | some key =>
        refine Program.continues_ok (Program.Complies.routine (Program.complies_observed ?_))
        refine (signWithKey_served settings chosen data).weaken ?_
        rintro reached result ⟨rfl, signs⟩
        refine Program.continues_ok (Program.Complies.routine (Program.complies_observed ?_))
        unfold Runtime.recordHistory
        rw [if_pos enabled]
        refine fun now => ⟨.listed keys, rfl, fun answer => ?_⟩
        refine ⟨.logged keys (historyEntry (Option.getD now 0) key (outcomeOf result)), ?_, ?_⟩
        · simp only [advance, describes_historyEntry chosen, ↓reduceIte]
        · exact Program.continues_ok (Program.complies_check (outcomeOf_succeeded signs))

/-- Every request keeps this order when the history is enabled. -/
theorem handle_ends (enabled : settings.historyEnabled = true) :
    Program.Complies (advance packet) .fresh (handle settings packet).run (Ends packet) := by
  refine Program.Complies.routine (Program.Complies.routine
    (Program.complies_observed (Program.complies_call fun cancelled => ?_)))
  cases (cancelled : Bool) with
  | true => exact ⟨.stopped, rfl, not_signed_error _⟩
  | false =>
    refine ⟨.begun, rfl, Program.continues_ok (Program.complies_check (Program.continues_ok ?_))⟩
    refine Program.Complies.routine (Program.complies_check ?_)
    cases parsed : parseRequest packet with
    | error error =>
      refine ⟨fun keys => ?_, not_signed_error _⟩
      simp only [selected, parsed]
    | ok request =>
      refine Program.continues_ok ?_
      cases request with
      | sign publicKey data flags => exact serveSign_ends enabled parsed
      | requestIdentities =>
        have unselected (keys : List StoredKey) : selected packet keys = none := by
          simp only [selected, parsed]
        refine Program.Complies.routine (Program.complies_demand (Program.complies_call fun answer => ?_))
        cases (answer : Except StoreError (List StoredKey)) with
        | error error => exact ⟨.unlisted, rfl, not_signed_error _⟩
        | ok keys =>
          refine ⟨.listed keys, rfl, Program.continues_ok (Program.complies_check ?_)⟩
          exact ⟨unselected keys, not_signed_identities⟩

end

/-! ## What a request has recorded -/

/-- The entry that a request asks to append. -/
def entryAsked : Operation → Option HistoryEntry
  | .appendHistory entry => some entry
  | _ => none

/-- The entries that a request has asked to append. -/
def entriesAsked (transcript : List (Program.Exchange Operation Answer)) : List HistoryEntry :=
  transcript.filterMap fun exchange => entryAsked exchange.1

/-- The entry that an exchange has appended. -/
def entryAppended : Program.Exchange Operation Answer → Option HistoryEntry
  | ⟨.appendHistory entry, answer⟩ =>
    match (answer : Except String Unit) with
    | .ok _ => some entry
    | .error _ => none
  | _ => none

/-- The entries that a request has appended. -/
def entriesAppended (transcript : List (Program.Exchange Operation Answer)) : List HistoryEntry :=
  transcript.filterMap entryAppended

/-- Every append of the transcript succeeded. -/
def Appends (transcript : List (Program.Exchange Operation Answer)) : Prop :=
  ∀ (entry : HistoryEntry) (answer : Except String Unit), ⟨.appendHistory entry, answer⟩ ∈ transcript →
    answer = .ok ()

/-- When every append succeeds, what was asked for is appended. -/
theorem entriesAppended_eq {transcript : List (Program.Exchange Operation Answer)} (appends : Appends transcript) :
    entriesAppended transcript = entriesAsked transcript := by
  refine List.filterMap_congr fun exchange member => ?_
  obtain ⟨operation, answer⟩ := exchange
  cases operation with
  | appendHistory entry =>
    rw [appends entry answer member]
    rfl
  | _ => rfl

/-- The entries of a stage. -/
def Stage.entries : Stage → List HistoryEntry
  | .logged _ entry => [entry]
  | _ => []

/-- The first exchange is a check, which stopped the request or let it begin. -/
def Stage.Begins (transcript : List (Program.Exchange Operation Answer)) : Stage → Prop
  | .fresh => transcript = []
  | .stopped => transcript.head? = some ⟨.cancelled, true⟩
  | _ => transcript.head? = some ⟨.cancelled, false⟩

/-- The listing that a stage knows was answered. -/
def Stage.Listed (packet : Bytes) (transcript : List (Program.Exchange Operation Answer)) : Stage → Prop
  | .unlisted => ∃ error : StoreError,
      ⟨.listKeys, (.error error : Except StoreError (List StoredKey))⟩ ∈ transcript
  | .listed keys => ⟨.listKeys, (.ok keys : Except StoreError (List StoredKey))⟩ ∈ transcript
  | .logged keys entry => ⟨.listKeys, (.ok keys : Except StoreError (List StoredKey))⟩ ∈ transcript ∧
      describes packet keys entry
  | _ => True

/-- Signing commands are for the selected record. -/
def Stage.Commands (packet : Bytes) (commands : List (StoredKey × TpmAuthorization)) : Stage → Prop
  | .listed keys => ∀ used ∈ commands, selected packet keys = some used.1
  | .logged keys _ => ∀ used ∈ commands, selected packet keys = some used.1
  | _ => commands = []

/-- The entries, the listing and the signing commands by stage. -/
structure Accounts (packet : Bytes) (stage : Stage) (transcript : List (Program.Exchange Operation Answer)) :
    Prop where
  entries : entriesAsked transcript = stage.entries
  begins : stage.Begins transcript
  listed : stage.Listed packet transcript
  commands : stage.Commands packet (signCalls transcript)

/-- The entry of one more exchange comes last. -/
theorem entriesAsked_concat (transcript : List (Program.Exchange Operation Answer))
    (exchange : Program.Exchange Operation Answer) :
    entriesAsked (transcript ++ [exchange]) = entriesAsked transcript ++ (entryAsked exchange.1).toList := by
  cases found : entryAsked exchange.1 <;> simp [entriesAsked, found]

section

variable {packet : Bytes} {keys : List StoredKey} {transcript : List (Program.Exchange Operation Answer)}
  {exchange : Program.Exchange Operation Answer}

/-- One more exchange leaves the first. -/
theorem head?_concat {first : Program.Exchange Operation Answer} (begins : transcript.head? = some first) :
    (transcript ++ [exchange]).head? = some first := by
  rw [List.head?_append, begins]
  rfl

/-- An exchange that neither records nor signs stays at the listing. -/
theorem Accounts.neutral (accounts : Accounts packet (.listed keys) transcript)
    (silent : entryAsked exchange.1 = none) (unsigned : signCall exchange.1 = none) :
    Accounts packet (.listed keys) (transcript ++ [exchange]) := by
  obtain ⟨entries, begins, listed, commands⟩ := accounts
  refine ⟨?_, head?_concat begins, List.mem_append_left _ listed, ?_⟩
  · rw [entriesAsked_concat, entries, silent]
    rfl
  · rw [signCalls_concat, unsigned, Option.toList_none, List.append_nil]
    exact commands

/-- The first check stops the request or lets it begin, and later ones change nothing. -/
theorem Accounts.check {stage next : Stage} {answer : Answer .cancelled} (accounts : Accounts packet stage transcript)
    (advanced : advance packet stage ⟨.cancelled, answer⟩ = some next) :
    Accounts packet next (transcript ++ [⟨.cancelled, answer⟩]) := by
  cases stage with
  | fresh =>
    obtain rfl : transcript = [] := accounts.begins
    cases (answer : Bool) with
    | true =>
      cases advanced
      exact ⟨rfl, rfl, trivial, rfl⟩
    | false =>
      cases advanced
      exact ⟨rfl, rfl, trivial, rfl⟩
  | listed keys =>
    cases advanced
    exact accounts.neutral rfl rfl
  | _ => cases advanced

/-- The listing of a request that has begun is what its stage knows. -/
theorem Accounts.list {stage next : Stage} {answer : Answer .listKeys} (accounts : Accounts packet stage transcript)
    (advanced : advance packet stage ⟨.listKeys, answer⟩ = some next) :
    Accounts packet next (transcript ++ [⟨.listKeys, answer⟩]) := by
  cases stage with
  | begun =>
    obtain ⟨entries, begins, _, commands⟩ := accounts
    have noEntries : entriesAsked (transcript ++ [⟨.listKeys, answer⟩]) = [] := by
      rw [entriesAsked_concat, entries]
      rfl
    have noSigns : signCalls (transcript ++ [⟨.listKeys, answer⟩]) = [] := by
      rw [signCalls_concat, show signCalls transcript = [] from commands]
      rfl
    cases (answer : Except StoreError (List StoredKey)) with
    | ok keys =>
      cases advanced
      exact ⟨noEntries, head?_concat begins, by simp [Stage.Listed], by rw [noSigns]; nofun⟩
    | error error =>
      cases advanced
      exact ⟨noEntries, head?_concat begins, ⟨error, by simp⟩, noSigns⟩
  | _ => cases advanced

/-- A signing command is for the selected record, and records nothing. -/
theorem Accounts.sign {stage next : Stage} {used : StoredKey} {digest : Bytes} {authorization : TpmAuthorization}
    {answer : Answer (.sign used digest authorization)} (accounts : Accounts packet stage transcript)
    (advanced : advance packet stage ⟨.sign used digest authorization, answer⟩ = some next) :
    Accounts packet next (transcript ++ [⟨.sign used digest authorization, answer⟩]) := by
  cases stage with
  | listed keys =>
    simp only [advance] at advanced
    split at advanced
    · rename_i chosen
      cases advanced
      obtain ⟨entries, begins, listed, commands⟩ := accounts
      refine ⟨?_, head?_concat begins, List.mem_append_left _ listed, ?_⟩
      · rw [entriesAsked_concat, entries]
        rfl
      · intro command member
        rw [signCalls_concat] at member
        rcases List.mem_append.mp member with earlier | now
        · exact commands command earlier
        · cases List.mem_singleton.mp now
          exact chosen
    · cases advanced
  | _ => cases advanced

/-- The one entry describes the request, and no signing command follows it. -/
theorem Accounts.record {stage next : Stage} {entry : HistoryEntry} {answer : Answer (.appendHistory entry)}
    (accounts : Accounts packet stage transcript)
    (advanced : advance packet stage ⟨.appendHistory entry, answer⟩ = some next) :
    Accounts packet next (transcript ++ [⟨.appendHistory entry, answer⟩]) := by
  cases stage with
  | listed keys =>
    simp only [advance] at advanced
    split at advanced
    · rename_i describes
      cases advanced
      obtain ⟨entries, begins, listed, commands⟩ := accounts
      refine ⟨?_, head?_concat begins, ⟨List.mem_append_left _ listed, describes⟩, ?_⟩
      · rw [entriesAsked_concat, entries]
        rfl
      · rw [signCalls_concat]
        simpa [signCall, Stage.Commands] using commands
    · cases advanced
  | _ => cases advanced

/-- Every accepted exchange keeps the accounts. -/
theorem accounts_advance {stage next : Stage} (accounts : Accounts packet stage transcript)
    (advanced : advance packet stage exchange = some next) : Accounts packet next (transcript ++ [exchange]) := by
  obtain ⟨operation, answer⟩ := exchange
  cases operation with
  | cancelled => exact accounts.check advanced
  | listKeys => exact accounts.list advanced
  | sign used digest authorization => exact accounts.sign advanced
  | appendHistory entry => exact accounts.record advanced
  | requestPin | lockTpm | connectTpm | clock =>
    cases stage with
    | listed keys =>
      cases advanced
      exact accounts.neutral rfl rfl
    | _ => cases advanced

/-- The accounts of every accepted transcript. -/
theorem accounts_of_accepts {stage : Stage}
    (accepted : Program.accepts (advance packet) .fresh transcript = some stage) :
    Accounts packet stage transcript := by
  have begins : Accounts packet .fresh [] := ⟨rfl, rfl, trivial, rfl⟩
  exact Program.accepts_invariant (Accounts packet) begins
    (fun _ _ _ _ accounts advanced => accounts_advance accounts advanced) accepted

end

/-! ## Agreement of entries and answers -/

/-- Every question has an answer. -/
theorem nonempty_answer (operation : Operation) : Nonempty (Answer operation) := by
  cases operation with
  | cancelled => exact ⟨false⟩
  | listKeys => exact ⟨(.ok [] : Except StoreError (List StoredKey))⟩
  | requestPin => exact ⟨(.ok [] : Except String Bytes)⟩
  | lockTpm => exact ⟨(.ok true : Except Unit Bool)⟩
  | connectTpm => exact ⟨(.ok () : Except TpmError Unit)⟩
  | sign => exact ⟨(.ok [] : Except TpmError Bytes)⟩
  | clock => exact ⟨(none : Option UInt64)⟩
  | appendHistory => exact ⟨(.ok () : Except String Unit)⟩

/-- A request with an entry has nothing left to ask. -/
theorem finished_of_logged {packet : Bytes} {keys : List StoredKey} {entry : HistoryEntry}
    {program : Action (Except String Bytes)}
    (complies : Program.Complies (advance packet) (.logged keys entry) program (Ends packet)) :
    ∃ result, program = .done result := by
  cases program with
  | done result => exact ⟨result, rfl⟩
  | ask operation next =>
    obtain ⟨answer⟩ := nonempty_answer operation
    obtain ⟨reached, advanced, _⟩ := complies answer
    cases operation <;> cases advanced

/-- The request was answered with a signature. -/
def Responded (program : Action (Except String Bytes)) : Prop := ∃ result, program = .done result ∧ Signed result

instance (program : Action (Except String Bytes)) : Decidable (Responded program) :=
  match program with
  | .done result => decidable_of_iff (Signed result)
      ⟨fun signed => ⟨result, rfl, signed⟩, fun ⟨_, same, signed⟩ => Program.done.inj same ▸ signed⟩
  | .ask _ _ => .isFalse fun ⟨_, impossible, _⟩ => nomatch impossible

/-- At every point of a request it has appended an entry for a success if and only if
it was answered with a signature. -/
theorem succeeded_iff_responded {settings : Settings} (enabled : settings.historyEnabled = true) {packet : Bytes}
    {transcript : List (Program.Exchange Operation Answer)} {program : Action (Except String Bytes)}
    (followed : Program.Follows (handle settings packet).run transcript program) (appends : Appends transcript) :
    ((entriesAppended transcript).filter fun entry => entry.outcome = .succeeded).length ≤ 1 ∧
      (((entriesAppended transcript).filter fun entry => entry.outcome = .succeeded) ≠ [] ↔ Responded program) := by
  obtain ⟨stage, accepted, complies⟩ := (handle_ends enabled).of_follows followed
  have accounts := accounts_of_accepts accepted
  rw [entriesAppended_eq appends, accounts.entries]
  cases stage with
  | logged keys entry =>
    obtain ⟨result, rfl⟩ := finished_of_logged complies
    have agrees : entry.outcome = .succeeded ↔ Signed result := complies
    have responded : Responded (.done result) ↔ Signed result := by
      constructor
      · rintro ⟨other, same, signed⟩
        cases same
        exact signed
      · exact fun signed => ⟨result, rfl, signed⟩
    rw [responded, ← agrees]
    by_cases succeeded : entry.outcome = .succeeded <;> simp [Stage.entries, succeeded]
  | _ =>
    refine ⟨by simp [Stage.entries], ?_⟩
    have unanswered : ¬ Responded program := by
      rintro ⟨result, rfl, signed⟩
      first
        | exact complies.elim
        | exact complies signed
        | exact complies.2 signed
    simp [Stage.entries, unanswered]

/-- What is selected is the first listed record with the requested public key. -/
theorem selected_eq_some {packet : Bytes} {keys : List StoredKey} {key : StoredKey} :
    selected packet keys = some key ↔ ∃ publicKey data, parseRequest packet = .ok (.sign publicKey data 0) ∧
      keys.find? (fun key => key.summary.publicKey == publicKey) = some key := by
  unfold selected
  rcases parseRequest packet with error | _ | ⟨publicKey, data, flags⟩
  · simp
  · simp
  · by_cases plain : flags = 0
    · subst plain
      simp
    · simp [plain]

/-- A finished request and its entry, by what it was about. -/
theorem recorded_exactly {settings : Settings} (enabled : settings.historyEnabled = true) {packet : Bytes}
    {keys : List StoredKey} {transcript : List (Program.Exchange Operation Answer)} {result : Except String Bytes}
    (followed : Program.Follows (handle settings packet).run transcript (.done result))
    (store : ∀ answer : Except StoreError (List StoredKey), ⟨.listKeys, answer⟩ ∈ transcript → answer = .ok keys)
    (appends : Appends transcript) : ∃ cancelled : Bool, transcript.head? = some ⟨.cancelled, cancelled⟩ ∧
      (∀ key, cancelled = false → selected packet keys = some key → ∃ (timestamp : UInt64) (outcome : HistoryOutcome),
        entriesAppended transcript = [historyEntry timestamp key outcome] ∧ (outcome = .succeeded ↔ Signed result) ∧
          ∀ used ∈ signCalls transcript, used.1 = key) ∧
      (cancelled = true ∨ selected packet keys = none → entriesAppended transcript = [] ∧ ¬ Signed result) := by
  obtain ⟨stage, accepted, ends⟩ := (handle_ends enabled).of_follows_done followed
  have accounts := accounts_of_accepts accepted
  rw [entriesAppended_eq appends, accounts.entries]
  cases stage with
  | fresh => exact ends.elim
  | stopped => exact ⟨true, accounts.begins, nofun, fun _ => ⟨rfl, ends⟩⟩
  | begun =>
    refine ⟨false, accounts.begins, fun key _ chosen => ?_, fun _ => ⟨rfl, ends.2⟩⟩
    rw [ends.1 keys] at chosen
    cases chosen
  | unlisted =>
    obtain ⟨error, member⟩ := accounts.listed
    cases store _ member
  | listed shown =>
    obtain rfl : shown = keys := Except.ok.inj (store _ accounts.listed)
    refine ⟨false, accounts.begins, fun key _ chosen => ?_, fun _ => ⟨rfl, ends.2⟩⟩
    rw [ends.1] at chosen
    cases chosen
  | logged shown entry =>
    obtain ⟨member, describes⟩ := accounts.listed
    obtain rfl : shown = keys := Except.ok.inj (store _ member)
    refine ⟨false, accounts.begins, fun key _ chosen => ?_, ?_⟩
    · simp only [Journal.describes, chosen, decide_eq_true_eq] at describes
      refine ⟨entry.timestampSeconds, entry.outcome, by rw [← describes]; rfl, ends, ?_⟩
      intro used among
      have same : selected packet shown = some used.1 := accounts.commands used among
      exact Option.some.inj (same.symm.trans chosen)
    · rintro (impossible | unselected)
      · cases impossible
      · simp only [Journal.describes, unselected, Bool.false_eq_true] at describes

/-- Counting signature answers and entries for successes over any requests. -/
theorem count_succeeded {requests : List Agent.Request}
    (agree : ∀ request ∈ requests,
      ((entriesAppended request.transcript).filter fun entry => entry.outcome = .succeeded).length ≤ 1 ∧
        (((entriesAppended request.transcript).filter fun entry => entry.outcome = .succeeded) ≠ [] ↔
          Responded request.program)) :
    (requests.filter fun request => Responded request.program).length =
      ((requests.flatMap fun request => entriesAppended request.transcript).filter fun entry =>
        entry.outcome = .succeeded).length := by
  induction requests with
  | nil => rfl
  | cons request rest inductionHypothesis =>
    obtain ⟨atMost, exactly⟩ := agree request List.mem_cons_self
    have later := inductionHypothesis fun other member => agree other (List.mem_cons_of_mem _ member)
    rw [List.flatMap_cons, List.filter_append, List.length_append, ← later]
    by_cases responded : Responded request.program
    · have some := List.length_pos_iff.mpr (exactly.mpr responded)
      rw [List.filter_cons_of_pos (by simpa using responded), List.length_cons]
      omega
    · have none := not_not.mp (mt exactly.mp responded)
      rw [List.filter_cons_of_neg (by simpa using responded), none, List.length_nil, Nat.zero_add]

/-- With the history enabled, and appends and listings that succeed: a request that
was not cancelled at its first check and asks, without flags, for a signature with a
stored public key appends one entry, about the record that every signing command
used, which tells of a success exactly when a signature is returned; any other
request appends none and returns no signature. Over any run of interleaved requests
there are as many signature answers as entries for successes. -/
theorem history_tells_the_truth (settings : Settings) (enabled : settings.historyEnabled = true) :
    (∀ (packet : Bytes) (keys : List StoredKey) (transcript : List (Program.Exchange Operation Answer))
        (result : Except String Bytes),
      Program.Follows (handle settings packet).run transcript (.done result) →
      (∀ answer : Except StoreError (List StoredKey), ⟨.listKeys, answer⟩ ∈ transcript → answer = .ok keys) →
      Appends transcript → ∃ cancelled : Bool, transcript.head? = some ⟨.cancelled, cancelled⟩ ∧
        (∀ (publicKey data : Bytes) (key : StoredKey), cancelled = false →
          parseRequest packet = .ok (.sign publicKey data 0) →
          keys.find? (fun key => key.summary.publicKey == publicKey) = some key →
            ∃ (timestamp : UInt64) (outcome : HistoryOutcome),
              entriesAppended transcript = [historyEntry timestamp key outcome] ∧
                (outcome = .succeeded ↔ Signed result) ∧ ∀ used ∈ signCalls transcript, used.1 = key) ∧
        (cancelled = true ∨ (∀ publicKey data : Bytes, parseRequest packet = .ok (.sign publicKey data 0) →
            ∀ key ∈ keys, key.summary.publicKey ≠ publicKey) →
          entriesAppended transcript = [] ∧ ¬ Signed result)) ∧
    (∀ (process : UInt32) (actions : List Agent.Action) (state : Agent.State),
      Transition.run (Agent.step settings process) Agent.initial actions = some state →
      (∀ request ∈ state.requests, Appends request.transcript) →
        (state.requests.filter fun request => Responded request.program).length =
          ((state.requests.flatMap fun request => entriesAppended request.transcript).filter fun entry =>
            entry.outcome = .succeeded).length) := by
  constructor
  · intro packet keys transcript result followed store appends
    obtain ⟨cancelled, first, recorded, unrecorded⟩ := recorded_exactly enabled followed store appends
    refine ⟨cancelled, first, ?_, ?_⟩
    · intro publicKey data key began parsed found
      exact recorded key began (selected_eq_some.mpr ⟨publicKey, data, parsed, found⟩)
    · intro excluded
      refine unrecorded (excluded.imp_right fun unknown => ?_)
      cases chosen : selected packet keys with
      | none => rfl
      | some key =>
        obtain ⟨publicKey, data, parsed, found⟩ := selected_eq_some.mp chosen
        have same := List.find?_some found
        exact absurd (by simpa using same) (unknown publicKey data parsed key (List.mem_of_find?_eq_some found))
  · intro process actions state reached appends
    refine count_succeeded fun request member => ?_
    exact succeeded_iff_responded enabled (Agent.follows_of_run settings process reached request member)
      (appends request member)

/-! ## A failure and a success -/

/-- History is enabled. -/
def recording : Settings := ⟨fun _ _ => [9], true⟩

/-- A record without a PIN under the sample's public key. -/
def free : StoredKey := ⟨⟨⟨"k"⟩, "work", .ecdsaNistP256, .noPin, [7]⟩, ⟨[5], [6], [4], .noPin⟩⟩

/-- The request reaches the TPM at a time before the epoch, and its outcome is recorded. -/
def signingTranscript (answer : Except TpmError Bytes) (outcome : HistoryOutcome) :
    List (Program.Exchange Operation Answer) :=
  [⟨.cancelled, false⟩,
    ⟨.listKeys, (.ok [free] : Except StoreError (List StoredKey))⟩,
    ⟨.cancelled, false⟩,
    ⟨.lockTpm, (.ok true : Except Unit Bool)⟩,
    ⟨.sign free [9] .none, answer⟩] ++
  (match answer with
    | .ok _ => [⟨.cancelled, false⟩]
    | .error _ => []) ++
  [⟨.clock, (none : Option UInt64)⟩,
    ⟨.appendHistory (historyEntry 0 free outcome), (.ok () : Except String Unit)⟩]

/-- The store lists the record in such a transcript, and the entry is appended. -/
theorem signingTranscript_serves (answer : Except TpmError Bytes) (outcome : HistoryOutcome) :
    (∀ listed : Except StoreError (List StoredKey), ⟨.listKeys, listed⟩ ∈ signingTranscript answer outcome →
      listed = .ok [free]) ∧ Appends (signingTranscript answer outcome) := by
  constructor
  · intro listed member
    cases answer <;>
      simp only [signingTranscript, List.cons_append, List.nil_append, List.mem_cons, List.not_mem_nil, or_false]
        at member
    · rcases member with same | same | same | same | same | same | same <;> cases same
      rfl
    · rcases member with same | same | same | same | same | same | same | same <;> cases same
      rfl
  · intro entry appended member
    cases answer <;>
      simp only [signingTranscript, List.cons_append, List.nil_append, List.mem_cons, List.not_mem_nil, or_false]
        at member
    · rcases member with same | same | same | same | same | same | same <;> cases same
      rfl
    · rcases member with same | same | same | same | same | same | same | same <;> cases same
      rfl

/-- A refusal of the TPM is recorded as a failure, and no signature is returned. A request
that the TPM signs is recorded as a success, and its signature is returned. -/
theorem signatures_are_recorded :
    (∃ (timestamp : UInt64) (outcome : HistoryOutcome),
      entriesAppended (signingTranscript (.error .transport) .failed) = [historyEntry timestamp free outcome] ∧
        outcome ≠ .succeeded) ∧
    ∃ (response : Bytes) (timestamp : UInt64) (outcome : HistoryOutcome),
      Program.Follows (handle recording Agent.Sample.packet).run
          (signingTranscript (.ok (List.replicate 64 1)) .succeeded) (.done (.ok response)) ∧
        Signed (.ok response) ∧
        entriesAppended (signingTranscript (.ok (List.replicate 64 1)) .succeeded) =
          [historyEntry timestamp free outcome] ∧ outcome = .succeeded := by
  constructor
  · have followed : Program.Follows (handle recording Agent.Sample.packet).run
        (signingTranscript (.error .transport) .failed)
        (.done (.error "TPM signing failed: TPM transport failed")) := (Program.follow_eq_some _ _ _).mp rfl
    obtain ⟨store, appends⟩ := signingTranscript_serves (.error .transport) .failed
    obtain ⟨cancelled, first, recorded, _⟩ := (history_tells_the_truth recording rfl).1 Agent.Sample.packet [free]
      _ _ followed store appends
    cases first
    obtain ⟨timestamp, outcome, entries, agrees, _⟩ := recorded [7] [] free rfl (by decide) rfl
    refine ⟨timestamp, outcome, entries, fun succeeded => ?_⟩
    exact not_signed_error _ (agrees.mp succeeded)
  · have followed : Program.Follows (handle recording Agent.Sample.packet).run
        (signingTranscript (.ok (List.replicate 64 1)) .succeeded) (.done (.ok _)) :=
      (Program.follow_eq_some _ _ _).mp rfl
    obtain ⟨store, appends⟩ := signingTranscript_serves (.ok (List.replicate 64 1)) .succeeded
    obtain ⟨cancelled, first, recorded, _⟩ := (history_tells_the_truth recording rfl).1 Agent.Sample.packet [free]
      _ _ followed store appends
    cases first
    obtain ⟨timestamp, outcome, entries, agrees, _⟩ := recorded [7] [] free rfl (by decide) rfl
    refine ⟨_, timestamp, outcome, followed, ?_, entries, agrees.mpr ?_⟩ <;> decide +kernel

end Keyvisor.Journal
