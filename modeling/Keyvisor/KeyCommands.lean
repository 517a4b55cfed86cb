import Keyvisor.Foundation.Monitor
import Keyvisor.SecretEntry
import Keyvisor.Tsv

/-!
# Keys on the command line

Executable translation of `show_key`, `delete_key` and `find_key` in
`keyvisor-cli/src/main.rs`, for the directory of `store_directory`; `list_keys` and
`require_confirmation` have theirs in the modules of their output and of the terminal.

A deletion is shown to need the owner's consent whatever other processes do to the store
meanwhile.
-/

namespace Keyvisor.KeyCommands

open Foundation Foundation.Directory Foundation.Text RecordCodec KeyStore
open Creation (osText)
open Tsv (Crates printed fingerprint policyName)

/-- What a key command asks of the store and of the terminal. -/
inductive Operation where
  | store (operation : Directory.Operation)
  | tty (operation : SecretEntry.Operation)
  deriving DecidableEq, Repr

/-- What is answered to each operation. -/
def Answer : Operation → Type
  | .store operation => Directory.Answer operation
  | .tty operation => SecretEntry.Answer operation

abbrev Action := Program Operation Answer

abbrev Routine := ExceptT String Action

abbrev Exchange := Program.Exchange Operation Answer

/-- A routine of the store as a part of a command. -/
def inStore {α : Type} (task : Task String α) : Routine α :=
  ExceptT.mk (task.run.translate Operation.store fun _ reply => reply)

/-- A routine at the terminal as a part of a command. -/
def atTerminal {α : Type} (routine : SecretEntry.Routine String α) : Routine α :=
  ExceptT.mk (routine.run.translate Operation.tty fun _ reply => reply)

/-- The first listed record with the identifier. -/
def named (id : String) (keys : List StoredKey) : Except String StoredKey :=
  match keys.find? fun key => key.summary.id.asStr = id with
  | some key => .ok key
  | none => .error ("key \x60" ++ id ++ "\x60 was not found")

/-- `find_key`. -/
def findKey (id : String) : Task String StoredKey := do
  let keys ← reporting (fun error : StoreError => "cannot list keys: " ++ error.message) list
  named id keys

/-- What `show_key` prints; the public key is encoded with padding. -/
def printKey (crates : Crates) (standard : Bytes → Bytes) (key : StoredKey) : Bytes :=
  printed [utf8 "ID: " ++ utf8 key.summary.id.asStr, utf8 "Name: " ++ utf8 key.summary.name,
    utf8 "Algorithm: " ++ utf8 key.summary.algorithm.sshKeyType,
    utf8 "Authorization: " ++ policyName key.summary.usePolicy,
    utf8 "Fingerprint: " ++ fingerprint crates key.summary.publicKey,
    utf8 "Public key: " ++ utf8 key.summary.algorithm.sshKeyType ++ [32] ++ standard key.summary.publicKey ++ [32] ++
      utf8 key.summary.name]

/-- `show_key`. -/
def showKey (crates : Crates) (standard : Bytes → Bytes) (id : Bytes) : Task String Bytes := do
  let id ← osText id "key identifier"
  let key ← findKey id
  return printKey crates standard key

/-- The identifier that a deletion names, and whether a flag confirms it. -/
def deletionArguments : List Bytes → Except String (Bytes × Bool)
  | [id] => .ok (id, false)
  | [id, flag] =>
    if flag = utf8 "--yes" then .ok (id, true) else .error "usage: keyvisor key delete ID [--yes]"
  | _ => .error "usage: keyvisor key delete ID [--yes]"

/-- What is asked before a key is deleted. -/
def question (key : StoredKey) : String := "Delete key “" ++ key.summary.name ++ "”? [y/N] "

/-- A deletion is confirmed, on the terminal or in advance. -/
def confirm (confirmed : Bool) (key : StoredKey) : Routine Unit :=
  if confirmed then pure () else atTerminal (SecretEntry.requireConfirmation (question key))

/-- `delete_key` with its arguments parsed. -/
def deleteNamed (id : String) (confirmed : Bool) : Routine Unit := do
  let key ← inStore (findKey id)
  confirm confirmed key
  inStore (reporting (fun error : StoreError => "cannot delete key: " ++ error.message) (delete key.summary.id))

/-- `delete_key`. -/
def deleteKey (arguments : List Bytes) : Routine Unit := do
  let (id, confirmed) ← deletionArguments arguments
  let id ← osText id "key identifier"
  deleteNamed id confirmed

/-- Accepted arguments name a record and say whether its deletion is confirmed. -/
theorem deleteKey_accepted {arguments : List Bytes} {id : String} {confirmed : Bool}
    (accepted : deletionArguments arguments = .ok (utf8 id, confirmed)) :
    deleteKey arguments = deleteNamed id confirmed := by
  have text : osText (utf8 id) "key identifier" = .ok id := by rw [osText, fromUtf8_utf8]
  show (liftM (deletionArguments arguments) >>= fun parts : Bytes × Bool =>
    liftM (osText parts.1 "key identifier") >>= fun id => deleteNamed id parts.2 : Routine Unit) = _
  rw [accepted]
  show (liftM (osText (utf8 id) "key identifier") >>= fun id => deleteNamed id confirmed : Routine Unit) = _
  rw [text]
  rfl

/-- Other arguments are an error. -/
theorem deleteKey_ends {arguments : List Bytes}
    (refused : ∀ id confirmed, deletionArguments arguments ≠ .ok (utf8 id, confirmed)) :
    ∃ message, (deleteKey arguments).run = .done (.error message) := by
  unfold deleteKey
  cases parsed : deletionArguments arguments with
  | error message => exact ⟨message, rfl⟩
  | ok parts =>
    obtain ⟨bytes, confirmed⟩ := parts
    cases spelled : fromUtf8 bytes with
    | none =>
      refine ⟨"key identifier" ++ " is not valid UTF-8", ?_⟩
      show (liftM (osText bytes "key identifier") >>= fun id => deleteNamed id confirmed : Routine Unit).run = _
      rw [osText, spelled]
      rfl
    | some id =>
      rw [(fromUtf8_eq_some _ _).mp spelled] at parsed
      exact absurd parsed (refused id confirmed)

/-! ## The course of a deletion -/

/-- Where a deletion is, with the records that it has read. -/
inductive Stage where
  | searching (seen : List StoredKey)
  | prompting (seen : List StoredKey)
  | asked (key : StoredKey)
  | agreed (key : StoredKey)
  | inspected
  | removed
  | opened
  | deleted
  | stopped
  deriving DecidableEq, Repr

/-- A record that was read has the identifier. -/
def Seen (id : String) (seen : List StoredKey) : Prop := ∃ key ∈ seen, key.summary.id.asStr = id

instance (id : String) (seen : List StoredKey) : Decidable (Seen id seen) :=
  inferInstanceAs (Decidable (∃ key ∈ seen, key.summary.id.asStr = id))

/-- The records seen after one more file was read. -/
def noticed (seen : List StoredKey) : Except IoError Bytes → List StoredKey
  | .ok bytes =>
    match decode bytes with
    | .ok key => key :: seen
    | .error _ => seen
  | .error _ => seen

/-- Only a regular file is removed. -/
def found : Except IoError (FileKind × Nat) → Stage
  | .ok metadata => if metadata.1 = .regular then .inspected else .stopped
  | .error _ => .stopped

/-- The store is searched, the owner is asked unless a flag has confirmed the deletion, and
the file under the identifier is inspected, removed and its removal synced. -/
def searches (id : String) (confirmed : Bool) (stage : Stage) :
    (operation : Directory.Operation) → Directory.Answer operation → Option Stage
  | .readDirectory, _ =>
    match stage with
    | .searching seen => some (.searching seen)
    | _ => none
  | .entryKind _, _ =>
    match stage with
    | .searching seen => some (.searching seen)
    | _ => none
  | .read _, answer =>
    match stage with
    | .searching seen => some (.searching (noticed seen answer))
    | _ => none
  | .inspect name, answer =>
    match stage with
    | .searching seen => if confirmed ∧ Seen id seen ∧ name = pathFor ⟨id⟩ then some (found answer) else none
    | .agreed _ => if name = pathFor ⟨id⟩ then some (found answer) else none
    | _ => none
  | .removeFile name, answer =>
    if stage = .inspected ∧ name = pathFor ⟨id⟩ then
      match (show Except IoError Unit from answer) with
      | .ok _ => some .removed
      | .error _ => some .stopped
    else none
  | .openDirectory, answer =>
    if stage = .removed then
      match (show Except IoError Unit from answer) with
      | .ok _ => some .opened
      | .error _ => some .stopped
    else none
  | .syncDirectory, answer =>
    if stage = .opened then
      match (show Except IoError Unit from answer) with
      | .ok _ => some .deleted
      | .error _ => some .stopped
    else none
  | _, _ => none

/-- The line that was read agrees. -/
def consents : Except IoError Bytes → Bool
  | .ok line =>
    match SecretEntry.answerText line with
    | .ok answer => SecretEntry.agrees answer
    | .error _ => false
  | .error _ => false

/-- The owner is asked about a record that was read. -/
def asks (id : String) (confirmed : Bool) (stage : Stage) :
    (operation : SecretEntry.Operation) → SecretEntry.Answer operation → Option Stage
  | .openTty, answer =>
    match stage, (show Except IoError Unit from answer) with
    | .searching seen, .ok _ => if confirmed then none else some (.prompting seen)
    | .searching _, .error _ => if confirmed then none else some .stopped
    | _, _ => none
  | .writeTty bytes, answer =>
    match stage with
    | .prompting seen =>
      match seen.find? fun key => key.summary.id.asStr = id ∧ bytes = utf8 (question key) with
      | some key =>
        match (show Except IoError Unit from answer) with
        | .ok _ => some (.asked key)
        | .error _ => some .stopped
      | none => none
    | _ => none
  | .flushTty, answer =>
    match stage, (show Except IoError Unit from answer) with
    | .asked key, .ok _ => some (.asked key)
    | .asked _, .error _ => some .stopped
    | _, _ => none
  | .readTtyLine, answer =>
    match stage with
    | .asked key => if consents answer then some (.agreed key) else some .stopped
    | _ => none
  | _, _ => none

/-- What a deletion may do next. -/
def advance (id : String) (confirmed : Bool) (stage : Stage) : Exchange → Option Stage
  | ⟨.store operation, answer⟩ => searches id confirmed stage operation answer
  | ⟨.tty operation, answer⟩ => asks id confirmed stage operation answer

/-- The same for the store alone. -/
def storeMonitor (id : String) (confirmed : Bool) (stage : Stage)
    (exchange : Program.Exchange Directory.Operation Directory.Answer) : Option Stage :=
  searches id confirmed stage exchange.1 exchange.2

/-- The same for the terminal alone. -/
def terminalMonitor (id : String) (confirmed : Bool) (stage : Stage)
    (exchange : Program.Exchange SecretEntry.Operation SecretEntry.Answer) : Option Stage :=
  asks id confirmed stage exchange.1 exchange.2

section

variable {id : String} {confirmed : Bool}

/-- A search goes on, and the records that it keeps were read. -/
def Collected {ε : Type} (stage : Stage) (outcome : Except ε (List StoredKey)) : Prop :=
  ∃ seen, stage = .searching seen ∧ ∀ found, outcome = .ok found → ∀ key ∈ found, key ∈ seen

/-- A failed reading collects nothing. -/
theorem collected_error {ε : Type} (seen : List StoredKey) (error : ε) :
    Collected (.searching seen) (.error error) := by
  refine ⟨seen, rfl, fun found impossible => ?_⟩
  cases impossible

/-- The listed keys were all seen. -/
theorem collected_ok (ε : Type) {seen keys : List StoredKey} (known : ∀ key ∈ keys, key ∈ seen) :
    Collected (.searching seen) (.ok keys : Except ε (List StoredKey)) := by
  refine ⟨seen, rfl, fun found same => ?_⟩
  cases same
  exact known

/-- Whatever the store answers, each record that is kept of an entry was read. -/
theorem listEntry_searches (keys : List StoredKey) (entry : Name) {seen : List StoredKey}
    (known : ∀ key ∈ keys, key ∈ seen) :
    Program.Complies (storeMonitor id confirmed) (.searching seen) (listEntry keys entry).run Collected := by
  unfold listEntry
  split
  · exact collected_ok _ known
  · refine Program.Complies.routine (Program.complies_demand (Program.complies_call fun kind =>
      ⟨.searching seen, rfl, ?_⟩))
    cases (kind : Except IoError FileKind) with
    | error error => exact collected_error _ _
    | ok kind =>
      refine Program.continues_ok ?_
      split
      · exact collected_error _ _
      · refine Program.Complies.routine (Program.complies_demand (Program.complies_call fun bytes => ⟨_, rfl, ?_⟩))
        cases (bytes : Except IoError Bytes) with
        | error error => exact collected_error _ _
        | ok bytes =>
          refine Program.continues_ok (Program.Complies.routine (Program.complies_check ?_))
          cases decoded : decode bytes with
          | error error => exact collected_error _ _
          | ok key =>
            have kept : ∀ other ∈ keys ++ [key], other ∈ key :: seen := by
              simp only [List.mem_append, List.mem_cons, List.not_mem_nil, or_false]
              rintro other (old | rfl)
              · exact .inr (known other old)
              · exact .inl rfl
            have noted : noticed seen (.ok bytes) = key :: seen := by rw [noticed, decoded]
            show Collected (.searching (noticed seen (.ok bytes))) _
            rw [noted]
            exact collected_ok _ kept

/-- Reading the entries collects the keys that they hold. -/
theorem listing_searches (names : List Name) (keys : List StoredKey) {seen : List StoredKey}
    (known : ∀ key ∈ keys, key ∈ seen) :
    Program.Complies (storeMonitor id confirmed) (.searching seen) (names.foldlM listEntry keys).run Collected := by
  induction names generalizing keys seen with
  | nil => exact collected_ok _ known
  | cons entry rest inductionHypothesis =>
    rw [List.foldlM_cons]
    refine Program.Complies.routine ((listEntry_searches keys entry known).weaken ?_)
    rintro _ (error | found) ⟨later, rfl, read⟩
    · exact collected_error _ _
    · exact Program.continues_ok (inductionHypothesis found (read found rfl))

/-- A listing collects the keys of its entries. -/
theorem listEntries_searches (entries : Except IoError (List Name)) :
    Program.Complies (storeMonitor id confirmed) (.searching []) (listEntries entries).run Collected := by
  cases entries with
  | error error =>
    simp only [listEntries]
    split
    · exact collected_ok _ fun key absent => absent
    · exact collected_error _ _
  | ok names =>
    refine Program.Complies.routine ((listing_searches names [] fun key absent =>
      absurd absent List.not_mem_nil).weaken ?_)
    rintro _ (error | found) ⟨later, rfl, read⟩
    · exact collected_error _ _
    · exact collected_ok _ fun key member => read found rfl key (List.mem_mergeSort.mp member)

/-- Every record that a search finds was read. -/
theorem findKey_searches :
    Program.Complies (storeMonitor id confirmed) (.searching []) (findKey id).run
      fun stage outcome => ∃ seen, stage = .searching seen ∧
        ∀ key, outcome = .ok key → key ∈ seen ∧ key.summary.id.asStr = id := by
  have failing {later : List StoredKey} (message : String) : ∃ seen, Stage.searching later = .searching seen ∧
      ∀ key, (.error message : Except String StoredKey) = .ok key → key ∈ seen ∧ key.summary.id.asStr = id := by
    refine ⟨later, rfl, fun key impossible => ?_⟩
    cases impossible
  refine Program.Complies.routine (Program.complies_adapt (Program.Complies.routine (Program.complies_observed ?_)))
  refine Program.complies_call fun entries => ⟨.searching [], rfl, Program.continues_ok ?_⟩
  refine (listEntries_searches entries).weaken ?_
  rintro _ (error | found) ⟨later, rfl, read⟩
  · exact failing _
  · refine Program.continues_ok (Program.complies_check ?_)
    unfold named
    cases searched : found.find? fun key => key.summary.id.asStr = id with
    | none => exact failing _
    | some key =>
      refine ⟨later, rfl, fun other same => ?_⟩
      cases same
      exact ⟨read found rfl key (List.mem_of_find?_eq_some searched), by simpa using List.find?_some searched⟩

/-- Whatever the terminal answers, a confirmation comes from a line that agrees to the
question about a record that was read. -/
theorem requireConfirmation_asks {seen : List StoredKey} {key : StoredKey} (read : key ∈ seen)
    (same : key.summary.id.asStr = id) :
    Program.Complies (terminalMonitor id false) (.searching seen) (SecretEntry.requireConfirmation (question key)).run
      fun stage outcome => outcome = .ok () → ∃ key, stage = .agreed key := by
  have failing {stage : Stage} (message : String) : (.error message : Except String Unit) = .ok () →
      ∃ key, stage = .agreed key := by
    intro impossible
    cases impossible
  refine Program.Complies.routine (Program.complies_demand (Program.complies_call fun terminal => ?_))
  cases (terminal : Except IoError Unit) with
  | error error => exact ⟨.stopped, rfl, failing _⟩
  | ok _ =>
    refine ⟨.prompting seen, rfl, Program.continues_ok (Program.Complies.routine (Program.Complies.routine ?_))⟩
    refine Program.complies_demand (Program.complies_call fun written => ?_)
    obtain ⟨about, found⟩ : ∃ about, seen.find? (fun other => other.summary.id.asStr = id ∧
        utf8 (question key) = utf8 (question other)) = some about := by
      rw [← Option.isSome_iff_exists, List.find?_isSome]
      exact ⟨key, read, by simp [same]⟩
    have asked (answer : Except IoError Unit) : terminalMonitor id false (.prompting seen)
        ⟨.writeTty (utf8 (question key)), answer⟩ = match answer with
          | .ok _ => some (.asked about)
          | .error _ => some .stopped := by
      simp only [terminalMonitor, asks, found]
    cases (written : Except IoError Unit) with
    | error error => exact ⟨.stopped, asked _, failing _⟩
    | ok _ =>
      refine ⟨.asked about, asked _, Program.continues_ok (Program.complies_demand
        (Program.complies_call fun flushed => ?_))⟩
      cases (flushed : Except IoError Unit) with
      | error error => exact ⟨.stopped, rfl, failing _⟩
      | ok _ =>
        refine ⟨.asked about, rfl, Program.continues_ok (Program.Complies.routine ?_)⟩
        refine Program.complies_demand (Program.complies_call fun line => ?_)
        by_cases agreed : consents line = true
        · refine ⟨.agreed about, if_pos agreed, ?_⟩
          cases (line : Except IoError Bytes) with
          | error error => exact failing _
          | ok line =>
            refine Program.continues_ok (Program.Complies.routine (Program.complies_check ?_))
            cases SecretEntry.answerText line with
            | error message => exact failing _
            | ok answer =>
              refine Program.continues_ok ?_
              split
              · exact fun _ => ⟨about, rfl⟩
              · exact failing _
        · refine ⟨.stopped, if_neg agreed, ?_⟩
          cases (line : Except IoError Bytes) with
          | error error => exact failing _
          | ok line =>
            refine Program.continues_ok (Program.Complies.routine (Program.complies_check ?_))
            cases text : SecretEntry.answerText line with
            | error message => exact failing _
            | ok answer =>
              have disagrees : ¬ SecretEntry.agrees answer = true := by
                simpa only [consents, text] using agreed
              refine Program.continues_ok ?_
              rw [if_neg disagrees]
              exact failing _

/-- The store may now be asked about the file under the identifier. -/
def Ready (id : String) (confirmed : Bool) : Stage → Prop
  | .searching seen => confirmed ∧ Seen id seen
  | .agreed _ => True
  | _ => False

/-- A deletion that is ready ends with the record removed and synced, or fails. -/
theorem delete_searches {stage : Stage} (ready : Ready id confirmed stage) :
    Program.Complies (storeMonitor id confirmed) stage (delete ⟨id⟩).run
      fun stage outcome => outcome = .ok () → stage = .deleted := by
  have failing {stage : Stage} (error : StoreError) : (.error error : Except StoreError Unit) = .ok () →
      stage = .deleted := by
    intro impossible
    cases impossible
  unfold delete
  split
  · exact failing _
  · refine Program.Complies.routine (Program.complies_demand (Program.complies_call fun metadata => ?_))
    have looked (answer : Except IoError (FileKind × Nat)) : storeMonitor id confirmed stage
        ⟨.inspect (pathFor ⟨id⟩), answer⟩ = some (found answer) := by
      cases stage with
      | searching seen => exact if_pos ⟨ready.1, ready.2, rfl⟩
      | agreed key => exact if_pos rfl
      | _ => cases ready
    refine ⟨_, looked _, ?_⟩
    cases (metadata : Except IoError (FileKind × Nat)) with
    | error error => exact failing _
    | ok metadata =>
      refine Program.continues_ok ?_
      by_cases regular : metadata.1 = .regular
      · simp only [found, regular, ne_eq, not_true_eq_false, ↓reduceIte]
        refine Program.Complies.routine (Program.complies_demand (Program.complies_call fun removed => ?_))
        cases (removed : Except IoError Unit) with
        | error error => exact ⟨.stopped, if_pos ⟨rfl, rfl⟩, failing _⟩
        | ok _ =>
          refine ⟨.removed, if_pos ⟨rfl, rfl⟩, Program.continues_ok (Program.complies_adapt ?_)⟩
          refine Program.Complies.routine (Program.complies_call fun opened => ?_)
          cases (opened : Except IoError Unit) with
          | error error => exact ⟨.stopped, rfl, failing _⟩
          | ok _ =>
            refine ⟨.opened, rfl, Program.continues_ok (Program.complies_call fun synced => ?_)⟩
            cases (synced : Except IoError Unit) with
            | error error => exact ⟨.stopped, rfl, failing _⟩
            | ok _ => exact ⟨.deleted, rfl, fun _ => rfl⟩
      · simp only [regular, ne_eq, not_false_eq_true, ↓reduceIte]
        exact failing _

/-- A routine of the store advances the command. -/
theorem inStore_advances {α : Type} {stage : Stage} {task : Task String α} {post : Stage → Except String α → Prop}
    (complies : Program.Complies (storeMonitor id confirmed) stage task.run post) :
    Program.Complies (advance id confirmed) stage (inStore task).run post := by
  have agrees (stage : Stage) (operation : Directory.Operation) (answer : Directory.Answer operation) :
      advance id confirmed stage ⟨.store operation, answer⟩ = storeMonitor id confirmed stage ⟨operation, answer⟩ := rfl
  exact complies.translate agrees

/-- A routine at the terminal advances the command. -/
theorem atTerminal_advances {α : Type} {stage : Stage} {routine : SecretEntry.Routine String α}
    {post : Stage → Except String α → Prop}
    (complies : Program.Complies (terminalMonitor id confirmed) stage routine.run post) :
    Program.Complies (advance id confirmed) stage (atTerminal routine).run post := by
  have agrees (stage : Stage) (operation : SecretEntry.Operation) (answer : SecretEntry.Answer operation) :
      advance id confirmed stage ⟨.tty operation, answer⟩ =
        terminalMonitor id confirmed stage ⟨operation, answer⟩ := rfl
  exact complies.translate agrees

/-- A deletion succeeds only with the record removed and synced. -/
theorem deleteKey_advances {arguments : List Bytes}
    (accepted : deletionArguments arguments = .ok (utf8 id, confirmed)) :
    Program.Complies (advance id confirmed) (.searching []) (deleteKey arguments).run
      fun stage outcome => outcome = .ok () → stage = .deleted := by
  have failing {stage : Stage} (message : String) : (.error message : Except String Unit) = .ok () →
      stage = .deleted := by
    intro impossible
    cases impossible
  rw [deleteKey_accepted accepted]
  refine Program.Complies.routine ((inStore_advances findKey_searches).weaken ?_)
  rintro _ (message | key) ⟨seen, rfl, found⟩
  · exact failing _
  obtain ⟨read, same⟩ := found key rfl
  have identified : key.summary.id = ⟨id⟩ := congrArg KeyId.mk same
  have asks : Program.Complies (advance id confirmed) (.searching seen) (confirm confirmed key).run
      fun stage outcome => outcome = .ok () → Ready id confirmed stage := by
    cases confirmed with
    | true => exact fun _ => ⟨rfl, key, read, same⟩
    | false =>
      refine (atTerminal_advances (requireConfirmation_asks read same)).weaken fun stage outcome agreed succeeded => ?_
      obtain ⟨about, rfl⟩ := agreed succeeded
      trivial
  refine Program.continues_ok (Program.Complies.routine (asks.weaken ?_))
  rintro stage (message | _) ready
  · exact failing _
  · refine Program.continues_ok (inStore_advances (Program.complies_adapt ?_))
    rw [identified]
    refine (delete_searches (ready rfl)).weaken ?_
    rintro later (error | _) ended
    · exact failing _
    · exact fun _ => ended rfl

end

/-! ## What a removal is preceded by -/

/-- The operation can change the directory. -/
def Changes : Directory.Operation → Prop
  | .createDirectory _ => True
  | .protectDirectory _ => True
  | .createNew _ _ => True
  | .writeAll _ _ => True
  | .rename _ _ => True
  | .removeFile _ => True
  | _ => False

/-- The store was not changed. -/
def Quiet (earlier : List Exchange) : Prop :=
  ∀ exchange ∈ earlier, ∀ operation, exchange.1 = .store operation → ¬ Changes operation

/-- A file was read as this record. -/
def Reads (key : StoredKey) (exchange : Exchange) : Prop :=
  ∃ name bytes, exchange = ⟨.store (.read name), (.ok bytes : Except IoError Bytes)⟩ ∧ decode bytes = .ok key

/-- The question about the record was written and a line that agrees was read. -/
inductive Agrees (key : StoredKey) : List Exchange → Prop where
  | answered (line : Bytes) (answer : String) (text : SecretEntry.answerText line = .ok answer)
      (agreed : SecretEntry.agrees answer) :
      Agrees key [⟨.tty (.writeTty (utf8 (question key))), (.ok () : Except IoError Unit)⟩,
        ⟨.tty .readTtyLine, (.ok line : Except IoError Bytes)⟩]

/-- A record with the identifier was read, a flag or the owner's answer to the question about it
confirmed its deletion, and then a regular file was found under its name, in this order. -/
structure Cleared (id : String) (confirmed : Bool) (key : StoredKey) (earlier : List Exchange) : Prop where
  identified : key.summary.id.asStr = id
  evidence : ∃ reads consent mode, Reads key reads ∧ (confirmed ∧ consent = [] ∨ Agrees key consent) ∧
    List.Sublist (reads :: consent ++ [⟨.store (.inspect (pathFor ⟨id⟩)),
      (.ok (.regular, mode) : Except IoError (FileKind × Nat))⟩]) earlier
  quiet : Quiet earlier

/-- Three operations of the store that succeed take a record out of it. -/
def removal (id : String) : List Exchange :=
  [⟨.store (.removeFile (pathFor ⟨id⟩)), (.ok () : Except IoError Unit)⟩,
    ⟨.store .openDirectory, (.ok () : Except IoError Unit)⟩, ⟨.store .syncDirectory, (.ok () : Except IoError Unit)⟩]

/-- What has happened when a deletion is at this stage. -/
def Witnessed (id : String) (confirmed : Bool) : Stage → List Exchange → Prop
  | .searching seen, earlier => Quiet earlier ∧ ∀ key ∈ seen, ∃ reads ∈ earlier, Reads key reads
  | .prompting seen, earlier => Quiet earlier ∧ ∀ key ∈ seen, ∃ reads ∈ earlier, Reads key reads
  | .asked key, earlier => Quiet earlier ∧ key.summary.id.asStr = id ∧ ∃ reads, Reads key reads ∧
      List.Sublist [reads, ⟨.tty (.writeTty (utf8 (question key))), (.ok () : Except IoError Unit)⟩] earlier
  | .agreed key, earlier => Quiet earlier ∧ key.summary.id.asStr = id ∧ ∃ reads consent, Reads key reads ∧
      Agrees key consent ∧ List.Sublist (reads :: consent) earlier
  | .inspected, earlier => ∃ key, Cleared id confirmed key earlier
  | .removed, earlier => ∃ key before, Cleared id confirmed key before ∧ earlier = before ++ (removal id).take 1
  | .opened, earlier => ∃ key before, Cleared id confirmed key before ∧ earlier = before ++ (removal id).take 2
  | .deleted, earlier => ∃ key before, Cleared id confirmed key before ∧ earlier = before ++ removal id
  | .stopped, _ => True

section

variable {id : String} {confirmed : Bool} {stage next : Stage} {earlier : List Exchange}

/-- One more exchange that changes nothing stays quiet. -/
theorem Quiet.concat {exchange : Exchange} (quiet : Quiet earlier)
    (still : ∀ operation, exchange.1 = .store operation → ¬ Changes operation) : Quiet (earlier ++ [exchange]) := by
  intro other member
  rcases List.mem_append.mp member with old | new
  · exact quiet other old
  · rw [List.mem_singleton.mp new]
    exact still

/-- What was read is still read. -/
theorem known_concat {seen : List StoredKey} (exchange : Exchange)
    (known : ∀ key ∈ seen, ∃ reads ∈ earlier, Reads key reads) :
    ∀ key ∈ seen, ∃ reads ∈ earlier ++ [exchange], Reads key reads := by
  intro key member
  obtain ⟨reads, old, read⟩ := known key member
  exact ⟨reads, List.mem_append_left _ old, read⟩

/-- A file that was read as a record makes it known. -/
theorem known_noticed {seen : List StoredKey} (name : Name) (answer : Except IoError Bytes)
    (known : ∀ key ∈ seen, ∃ reads ∈ earlier, Reads key reads) :
    ∀ key ∈ noticed seen answer, ∃ reads ∈ earlier ++ [⟨.store (.read name), answer⟩], Reads key reads := by
  cases answer with
  | error error => exact known_concat _ known
  | ok bytes =>
    cases decoded : decode bytes with
    | error error =>
      rw [noticed, decoded]
      exact known_concat _ known
    | ok key =>
      rw [noticed, decoded]
      intro other member
      rcases List.mem_cons.mp member with rfl | old
      · exact ⟨_, List.mem_append_right _ (List.mem_singleton_self _), name, bytes, rfl, decoded⟩
      · exact known_concat _ known other old

/-- Only a regular file goes on to be removed. -/
theorem witnessed_found {name : Name} {answer : Except IoError (FileKind × Nat)}
    (holds : ∀ mode, ∃ key, Cleared id confirmed key
      (earlier ++ [⟨.store (.inspect name), (.ok (.regular, mode) : Except IoError (FileKind × Nat))⟩])) :
    Witnessed id confirmed (found answer) (earlier ++ [⟨.store (.inspect name), answer⟩]) := by
  match answer with
  | .error error => trivial
  | .ok (kind, mode) =>
    by_cases regular : kind = .regular
    · subst regular
      exact holds mode
    · simp only [found, regular, ↓reduceIte]
      trivial

/-- The file under the identifier was inspected after the confirmation. -/
theorem cleared_of_inspect {key : StoredKey} {reads : Exchange} {consent : List Exchange} {mode : Nat}
    (identified : key.summary.id.asStr = id) (read : Reads key reads)
    (consented : confirmed ∧ consent = [] ∨ Agrees key consent) (ordered : List.Sublist (reads :: consent) earlier)
    (quiet : Quiet earlier) :
    Cleared id confirmed key (earlier ++ [⟨.store (.inspect (pathFor ⟨id⟩)),
      (.ok (.regular, mode) : Except IoError (FileKind × Nat))⟩]) where
  identified := identified
  evidence := ⟨reads, consent, mode, read, consented, ordered.append (List.Sublist.refl _)⟩
  quiet := by
    refine quiet.concat ?_
    rintro operation ⟨⟩
    exact not_false

/-- An exchange with the store keeps what has happened. -/
theorem witnessed_searches {operation : Directory.Operation} {answer : Directory.Answer operation}
    (held : Witnessed id confirmed stage earlier) (taken : searches id confirmed stage operation answer = some next) :
    Witnessed id confirmed next (earlier ++ [⟨.store operation, answer⟩]) := by
  have still (looking : ¬ Changes operation) (other : Directory.Operation)
      (same : (Operation.store operation) = .store other) : ¬ Changes other := by
    cases same
    exact looking
  cases operation with
  | readDirectory =>
    cases stage with
    | searching seen =>
      cases taken
      exact ⟨held.1.concat (still not_false), known_concat _ held.2⟩
    | _ => cases taken
  | entryKind name =>
    cases stage with
    | searching seen =>
      cases taken
      exact ⟨held.1.concat (still not_false), known_concat _ held.2⟩
    | _ => cases taken
  | read name =>
    cases stage with
    | searching seen =>
      cases taken
      exact ⟨held.1.concat (still not_false), known_noticed name answer held.2⟩
    | _ => cases taken
  | inspect name =>
    cases stage with
    | searching seen =>
      simp only [searches, Option.ite_none_right_eq_some] at taken
      obtain ⟨⟨flagged, ⟨key, member, identified⟩, rfl⟩, ⟨⟩⟩ := taken
      obtain ⟨quiet, known⟩ := held
      obtain ⟨reads, old, read⟩ := known key member
      refine witnessed_found fun mode => ⟨key, ?_⟩
      exact cleared_of_inspect identified read (.inl ⟨flagged, rfl⟩) (List.singleton_sublist.mpr old) quiet
    | agreed key =>
      simp only [searches, Option.ite_none_right_eq_some] at taken
      obtain ⟨rfl, ⟨⟩⟩ := taken
      obtain ⟨quiet, identified, reads, consent, read, agrees, ordered⟩ := held
      exact witnessed_found fun mode => ⟨key, cleared_of_inspect identified read (.inr agrees) ordered quiet⟩
    | _ => cases taken
  | removeFile name =>
    simp only [searches, Option.ite_none_right_eq_some] at taken
    obtain ⟨⟨rfl, rfl⟩, taken⟩ := taken
    obtain ⟨key, cleared⟩ := held
    cases (answer : Except IoError Unit) with
    | error error =>
      cases taken
      trivial
    | ok _ =>
      cases taken
      exact ⟨key, earlier, cleared, rfl⟩
  | openDirectory =>
    simp only [searches, Option.ite_none_right_eq_some] at taken
    obtain ⟨rfl, taken⟩ := taken
    obtain ⟨key, before, cleared, rfl⟩ := held
    cases (answer : Except IoError Unit) with
    | error error =>
      cases taken
      trivial
    | ok _ =>
      cases taken
      exact ⟨key, before, cleared, List.append_assoc _ _ _⟩
  | syncDirectory =>
    simp only [searches, Option.ite_none_right_eq_some] at taken
    obtain ⟨rfl, taken⟩ := taken
    obtain ⟨key, before, cleared, rfl⟩ := held
    cases (answer : Except IoError Unit) with
    | error error =>
      cases taken
      trivial
    | ok _ =>
      cases taken
      exact ⟨key, before, cleared, List.append_assoc _ _ _⟩
  | _ => cases taken

/-- An exchange with the terminal keeps what has happened. -/
theorem witnessed_asks {operation : SecretEntry.Operation} {answer : SecretEntry.Answer operation}
    (held : Witnessed id confirmed stage earlier) (taken : asks id confirmed stage operation answer = some next) :
    Witnessed id confirmed next (earlier ++ [⟨.tty operation, answer⟩]) := by
  have still (other : Directory.Operation) (same : (Operation.tty operation) = .store other) : ¬ Changes other := by
    cases same
  cases operation with
  | openTty =>
    cases stage with
    | searching seen =>
      cases (answer : Except IoError Unit) with
      | error error =>
        simp only [asks, Option.ite_none_left_eq_some] at taken
        obtain ⟨_, ⟨⟩⟩ := taken
        trivial
      | ok _ =>
        simp only [asks, Option.ite_none_left_eq_some] at taken
        obtain ⟨_, ⟨⟩⟩ := taken
        exact ⟨held.1.concat still, known_concat _ held.2⟩
    | _ => cases (answer : Except IoError Unit) <;> cases taken
  | writeTty bytes =>
    cases stage with
    | prompting seen =>
      simp only [asks] at taken
      split at taken
      · rename_i key searched
        obtain ⟨quiet, known⟩ := held
        obtain ⟨identified, rfl⟩ : key.summary.id.asStr = id ∧ bytes = utf8 (question key) := by
          simpa using List.find?_some searched
        obtain ⟨reads, old, read⟩ := known key (List.mem_of_find?_eq_some searched)
        cases (answer : Except IoError Unit) with
        | error error =>
          cases taken
          trivial
        | ok _ =>
          cases taken
          exact ⟨quiet.concat still, identified, reads, read,
            (List.singleton_sublist.mpr old).append (List.Sublist.refl _)⟩
      · cases taken
    | _ => cases taken
  | flushTty =>
    cases stage with
    | asked key =>
      cases (answer : Except IoError Unit) with
      | error error =>
        cases taken
        trivial
      | ok _ =>
        cases taken
        obtain ⟨quiet, identified, reads, read, ordered⟩ := held
        exact ⟨quiet.concat still, identified, reads, read, ordered.trans (List.sublist_append_left _ _)⟩
    | _ => cases (answer : Except IoError Unit) <;> cases taken
  | readTtyLine =>
    cases stage with
    | asked key =>
      simp only [asks] at taken
      split at taken
      · rename_i agreed
        cases taken
        obtain ⟨quiet, identified, reads, read, ordered⟩ := held
        cases (answer : Except IoError Bytes) with
        | error error => cases agreed
        | ok line =>
          cases text : SecretEntry.answerText line with
          | error message =>
            rw [consents, text] at agreed
            cases agreed
          | ok answer =>
            rw [consents, text] at agreed
            exact ⟨quiet.concat still, identified, reads, _, read, .answered line answer text agreed,
              ordered.append (List.Sublist.refl _)⟩
      · cases taken
        trivial
    | _ => cases taken
  | _ => cases taken

/-- One exchange extends the evidence. -/
theorem witnessed_advance {exchange : Exchange} (held : Witnessed id confirmed stage earlier)
    (taken : advance id confirmed stage exchange = some next) :
    Witnessed id confirmed next (earlier ++ [exchange]) := by
  obtain ⟨operation | operation, answer⟩ := exchange
  · exact witnessed_searches held taken
  · exact witnessed_asks held taken

/-- An accepted transcript has happened as its stage says. -/
theorem witnessed_of_accepts (accepted : Program.accepts (advance id confirmed) (.searching []) earlier = some stage) :
    Witnessed id confirmed stage earlier := by
  have start : Witnessed id confirmed (.searching []) [] := by
    refine ⟨fun exchange absent => ?_, fun key absent => ?_⟩ <;> cases absent
  exact Program.accepts_invariant (Witnessed id confirmed) start (fun _ _ _ _ => witnessed_advance) accepted

/-- Only a removal of the file under the identifier is let through. -/
theorem removes_of_advance {operation : Directory.Operation} {answer : Directory.Answer operation}
    (held : Witnessed id confirmed stage earlier) (changes : Changes operation)
    (taken : advance id confirmed stage ⟨.store operation, answer⟩ = some next) :
    operation = .removeFile (pathFor ⟨id⟩) ∧ ∃ key, Cleared id confirmed key earlier := by
  cases operation with
  | removeFile name =>
    simp only [advance, searches, Option.ite_none_right_eq_some] at taken
    obtain ⟨⟨rfl, rfl⟩, _⟩ := taken
    exact ⟨rfl, held⟩
  | readDirectory | entryKind | read | inspect | openDirectory | syncDirectory => cases changes
  | _ => cases taken

end

/-- Arguments that are not accepted end the command before it has asked for anything. -/
theorem deleteKey_refused {arguments : List Bytes} {transcript : List Exchange}
    {remaining : Action (Except String Unit)}
    (refused : ∀ id confirmed, deletionArguments arguments ≠ .ok (utf8 id, confirmed))
    (followed : Program.Follows (deleteKey arguments).run transcript remaining) :
    transcript = [] ∧ remaining ≠ .done (.ok ()) := by
  obtain ⟨message, ends⟩ := deleteKey_ends refused
  rw [ends] at followed
  cases followed
  refine ⟨rfl, fun same => ?_⟩
  cases same

/-- Whatever the store and the terminal answer, and so whatever others do to the store meanwhile,
a deletion changes at most one file, that under the identifier that its arguments name, after a record with
this identifier was read, its deletion was confirmed and a regular file was found there; and a
success means that the file was removed and its removal synced. -/
theorem deletions_are_confirmed {arguments : List Bytes} {transcript : List Exchange}
    {remaining : Action (Except String Unit)}
    (followed : Program.Follows (deleteKey arguments).run transcript remaining) :
    (∀ earlier operation answer later, transcript = earlier ++ ⟨.store operation, answer⟩ :: later → Changes operation →
      ∃ id confirmed key, deletionArguments arguments = .ok (utf8 id, confirmed) ∧
        operation = .removeFile (pathFor ⟨id⟩) ∧ Cleared id confirmed key earlier) ∧
    (remaining = .done (.ok ()) → ∃ id confirmed key earlier, deletionArguments arguments = .ok (utf8 id, confirmed) ∧
      Cleared id confirmed key earlier ∧ transcript = earlier ++ removal id) := by
  by_cases accepted : ∃ id confirmed, deletionArguments arguments = .ok (utf8 id, confirmed)
  · obtain ⟨id, confirmed, parsed⟩ := accepted
    obtain ⟨final, traced, complies⟩ := (deleteKey_advances parsed).of_follows followed
    constructor
    · rintro earlier operation answer later rfl changes
      obtain ⟨stage, next, reached, taken⟩ := Program.accepts_at traced
      obtain ⟨removes, key, cleared⟩ := removes_of_advance (witnessed_of_accepts reached) changes taken
      exact ⟨id, confirmed, key, parsed, removes, cleared⟩
    · rintro rfl
      obtain rfl : final = .deleted := complies rfl
      obtain ⟨key, earlier, cleared, ends⟩ := witnessed_of_accepts traced
      exact ⟨id, confirmed, key, earlier, parsed, cleared, ends⟩
  · obtain ⟨rfl, unfinished⟩ := deleteKey_refused (fun id confirmed parsed => accepted ⟨id, confirmed, parsed⟩) followed
    refine ⟨fun earlier operation answer later impossible => ?_, fun done => absurd done unfinished⟩
    simp at impossible

namespace Sample

def key : StoredKey := ⟨⟨⟨"k"⟩, "work", .ecdsaNistP256, .noPin, [7]⟩, ⟨[5], [6], [4], .noPin⟩⟩

/-- The owner is asked about the only record and agrees. -/
def deletion : List Exchange :=
  [⟨.store .readDirectory, (.ok [pathFor ⟨"k"⟩] : Except IoError (List Name))⟩,
    ⟨.store (.entryKind (pathFor ⟨"k"⟩)), (.ok .regular : Except IoError FileKind)⟩,
    ⟨.store (.read (pathFor ⟨"k"⟩)), (.ok (layout (rawOf key)) : Except IoError Bytes)⟩,
    ⟨.tty .openTty, (.ok () : Except IoError Unit)⟩,
    ⟨.tty (.writeTty (utf8 (question key))), (.ok () : Except IoError Unit)⟩,
    ⟨.tty .flushTty, (.ok () : Except IoError Unit)⟩,
    ⟨.tty .readTtyLine, (.ok (utf8 "yes\n") : Except IoError Bytes)⟩,
    ⟨.store (.inspect (pathFor ⟨"k"⟩)), (.ok (.regular, 0o600) : Except IoError (FileKind × Nat))⟩] ++ removal "k"

/-- The program is over and has succeeded. -/
def succeeded : Action (Except String Unit) → Bool
  | .done (.ok _) => true
  | _ => false

/-- A program that has succeeded is over. -/
theorem eq_of_succeeded {program : Action (Except String Unit)} (success : succeeded program = true) :
    program = .done (.ok ()) := by
  unfold succeeded at success
  split at success
  · rfl
  · cases success

end Sample

/-- A deletion to which the terminal consents. -/
theorem deletions_are_confirmed_answered : ∃ id confirmed key earlier,
    deletionArguments [utf8 "k"] = .ok (utf8 id, confirmed) ∧ Cleared id confirmed key earlier ∧
      Sample.deletion = earlier ++ removal id := by
  have follows : ((deleteKey [utf8 "k"]).run.follow Sample.deletion).any Sample.succeeded = true := by decide +kernel
  obtain ⟨remaining, followed, success⟩ := (Option.any_eq_true _ _).mp follows
  exact (deletions_are_confirmed ((Program.follow_eq_some _ _ _).mp followed)).2 (Sample.eq_of_succeeded success)

end Keyvisor.KeyCommands
