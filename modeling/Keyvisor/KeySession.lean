import Keyvisor.Durability
import Keyvisor.Foundation.Looking
import Keyvisor.Foundation.Session
import Keyvisor.KeyCommands

/-!
# Sessions of key commands

The commands of the key group on one directory, each a process of its own whose operations
may fail and that may be stopped at any point. Over any number of them the directory behaves
as one map of records, from which a record disappears only with consent.
-/

namespace Keyvisor.KeyCommands

open Foundation Foundation.Directory Foundation.Session Foundation.Text Foundation.Transition RecordCodec KeyStore
open Creation (osText)
open Tsv (Crates printed)

/-! ## One store -/

abbrev Terminal := (operation : SecretEntry.Operation) → SecretEntry.Answer operation

/-- The store answers with its failures and the terminal as it is used. -/
def respond (enumerate : List Name → List Name) (faults : Faults) (terminal : Terminal) :
    (operation : Operation) → Place → Answer operation × Place
  | .store operation, place => attempt enumerate faults operation place
  | .tty operation, place => (terminal operation, place)

/-- The commands of the key group; of `create_key` the part that saves the new record. -/
inductive Command where
  | create (pid : UInt32) (key : StoredKey)
  | listing (arguments : List Bytes)
  | showing (id : Bytes)
  | deletion (arguments : List Bytes)

/-- What each command does and prints. -/
def Command.routine (crates : Crates) (standard : Bytes → Bytes) : Command → Routine Bytes
  | .create pid key => do
    inStore (reporting (fun error : StoreError => "cannot persist the wrapped TPM key: " ++ error.message)
      (save pid key))
    return printed [utf8 key.summary.id.asStr]
  | .listing arguments => inStore (Tsv.listKeys crates arguments)
  | .showing id => inStore (showKey crates standard id)
  | .deletion arguments => do
    deleteKey arguments
    return []

/-- The identifier whose deletion the arguments ask for and a flag or the owner confirms. -/
def confirmedDeletion (terminal : Terminal) (arguments : List Bytes) : Option KeyId :=
  match deletionArguments arguments with
  | .ok (id, confirmed) =>
    if confirmed || consents (terminal .readTtyLine) then (fromUtf8 id).map KeyId.mk else none
  | .error _ => none

/-- The effect of a command on the records. -/
def applied (terminal : Terminal) (command : Command) (records : Records) : Records :=
  match command with
  | .create _ key =>
    if validateRecord key = .ok () then Function.update records key.summary.id (some key) else records
  | .deletion arguments =>
    match confirmedDeletion terminal arguments with
    | some id => Function.update records id none
    | none => records
  | _ => records

/-- All records, once each, in the order of their identifiers. -/
structure InOrder (records : Records) (keys : List StoredKey) : Prop where
  members : ∀ key, key ∈ keys ↔ ∃ id, records id = some key
  ordered : keys.Pairwise fun left right => utf8 left.summary.id.asStr < utf8 right.summary.id.asStr

/-- What a success prints of the records. -/
def Prints (crates : Crates) (standard : Bytes → Bytes) (terminal : Terminal) (records : Records) (output : Bytes) :
    Command → Prop
  | .create _ key => validateRecord key = .ok () ∧ output = printed [utf8 key.summary.id.asStr]
  | .listing arguments => ∃ format keys, Tsv.parseFormat arguments = .ok format ∧ InOrder records keys ∧
      output = Tsv.printKeys crates format keys
  | .showing id => ∃ text key, id = utf8 text ∧ records ⟨text⟩ = some key ∧ output = printKey crates standard key
  | .deletion arguments =>
    ∃ id key, confirmedDeletion terminal arguments = some id ∧ records id = some key ∧ output = []

/-- What a command is for. A failure to sync the directory may come after its effect. -/
def purpose (crates : Crates) (standard : Bytes → Bytes) (faults : Faults) (terminal : Terminal) (command : Command) :
    Purpose Records Bytes where
  effect := applied terminal command
  answers records output := Prints crates standard terminal records output command
  excused := Unsynced faults

/-- The records of a place. -/
abbrev Shows (place : Place) (records : Records) : Prop := Stored records place

/-- A listing only looks. -/
theorem looks_list : list.run.Issues Looks := by
  refine Program.Issues.routine (Program.issues_observed (Program.issues_call trivial)) fun entries => ?_
  cases entries with
  | error error =>
    simp only [listEntries]
    split <;> trivial
  | ok names =>
    refine (issues_foldlM (fun keys entry => ?_) [] names).routine fun found => trivial
    unfold listEntry
    split
    · trivial
    · have asks : (demand (entryKind entry)).run.Issues Looks := Program.issues_call trivial
      have reads : (demand (read entry)).run.Issues Looks := Program.issues_call trivial
      refine (Program.issues_adapt StoreError.io asks).routine fun kind => ?_
      split
      · trivial
      · exact (Program.issues_adapt StoreError.io reads).routine fun bytes =>
          (Program.issues_check _ _).routine fun key => trivial

/-- Only a missing directory is no failure of a listing. -/
theorem strict_list : Strict list.run := by
  refine ⟨fun fault => ?_, fun entries => ?_⟩
  · show Fails (listEntries (.error fault.error)).run
    rw [listEntries, if_neg fault.present]
    exact fails_error _
  · show Strict (listEntries entries).run
    cases (entries : Except IoError (List Name)) with
    | error error =>
      simp only [listEntries]
      split <;> trivial
    | ok names =>
      refine (strict_foldlM (fun keys entry => ?_) [] names).routine fun found => trivial
      unfold listEntry
      split
      · trivial
      · have asks : Strict (demand (entryKind entry)).run := ⟨fun _ => fails_error _, fun _ => trivial⟩
        have reads : Strict (demand (read entry)).run := ⟨fun _ => fails_error _, fun _ => trivial⟩
        refine (asks.adapt StoreError.io).routine fun kind => ?_
        split
        · trivial
        · exact (reads.adapt StoreError.io).routine fun bytes => (strict_check _).routine fun key => trivial

/-- The terminal on its own, beside any state. -/
def typed (terminal : Terminal) (operation : SecretEntry.Operation) (place : Place) :
    SecretEntry.Answer operation × Place :=
  (terminal operation, place)

/-- A failure of the terminal is reported behind a text and changes nothing. -/
theorem execute_onTty {terminal : Terminal} {α : Type} {outcome : SecretEntry.Action (Except IoError α)}
    {place : Place} (failure : String) (value : Except IoError α)
    (answers : outcome.run (typed terminal) place = (value, place)) :
    Program.execute (typed terminal) (SecretEntry.onTty failure outcome) place =
      (value.mapError fun error => failure ++ error.text, place) := by
  rw [SecretEntry.onTty, Program.execute_demand, answers]

/-- A confirmation that succeeds has read a line that agrees. -/
theorem consents_of_confirmation {terminal : Terminal} {text : String} {place : Place}
    (succeeded : (Program.execute (typed terminal) (SecretEntry.requireConfirmation text) place).1 = .ok ()) :
    consents (terminal .readTtyLine) := by
  have opens := execute_onTty "confirmation requires a terminal: " (terminal .openTty : Except IoError Unit)
    (rfl : (Program.call SecretEntry.Operation.openTty).run (typed terminal) place = _)
  have writes := execute_onTty "cannot write confirmation prompt: "
    (terminal (.writeTty (utf8 text)) : Except IoError Unit)
    (rfl : (Program.call (SecretEntry.Operation.writeTty (utf8 text))).run (typed terminal) place = _)
  have flushes := execute_onTty "cannot write confirmation prompt: " (terminal .flushTty : Except IoError Unit)
    (rfl : (Program.call SecretEntry.Operation.flushTty).run (typed terminal) place = _)
  have reads := execute_onTty "cannot read confirmation: " (terminal .readTtyLine : Except IoError Bytes)
    (rfl : (Program.call SecretEntry.Operation.readTtyLine).run (typed terminal) place = _)
  generalize (terminal .openTty : Except IoError Unit) = opened at opens
  generalize (terminal (.writeTty (utf8 text)) : Except IoError Unit) = written at writes
  generalize (terminal .flushTty : Except IoError Unit) = flushed at flushes
  generalize (terminal .readTtyLine : Except IoError Bytes) = line at reads ⊢
  rw [SecretEntry.requireConfirmation, Program.execute_bind, opens] at succeeded
  cases opened with
  | error error => cases succeeded
  | ok _ =>
    simp only [Except.mapError, Program.execute_bind, SecretEntry.prompt, writes] at succeeded
    cases written with
    | error error => cases succeeded
    | ok _ =>
      simp only [flushes] at succeeded
      cases flushed with
      | error error => cases succeeded
      | ok _ =>
        simp only [Except.mapError, reads] at succeeded
        cases line with
        | error error => cases succeeded
        | ok line =>
          rw [consents]
          cases spelled : SecretEntry.answerText line with
          | error message =>
            simp only [spelled] at succeeded
            cases succeeded
          | ok answer =>
            by_cases agrees : SecretEntry.agrees answer = true
            · exact agrees
            · simp only [spelled] at succeeded
              have decides : (Program.execute (typed terminal) (if SecretEntry.agrees answer then pure () else
                  throw "operation cancelled" : SecretEntry.Routine String Unit) place).1 = .ok () := succeeded
              rw [if_neg agrees] at decides
              cases decides

section

variable {enumeration : Enumeration} {faults : Faults} {terminal : Terminal} {crates : Crates}
    {standard : Bytes → Bytes}
  {start : Place} {records : Records} (stored : Stored records start)

/-- A routine of the store meets in a command what it meets alone. -/
theorem meets_inStore {α : Type} {task : Task String α} {before crash : Place → Prop}
    {after : Except String α → Place → Prop}
    (meets : Program.Meets (attempt enumeration.order faults) before task.run crash after) :
    Program.Meets (respond enumeration.order faults terminal) before (inStore task).run crash after := by
  have agrees (operation : Directory.Operation) (place : Place) :
      (respond enumeration.order faults terminal (.store operation) place).1 =
        (attempt enumeration.order faults operation place).1 ∧
      (respond enumeration.order faults terminal (.store operation) place).2 =
        (attempt enumeration.order faults operation place).2 :=
    ⟨rfl, rfl⟩
  exact meets.translate agrees

include stored

/-- A search that succeeds has found a record of the store. -/
theorem stored_of_findKey {id : String} {key : StoredKey}
    (finds : execute enumeration.order (findKey id) start = (.ok key, start)) : records ⟨id⟩ = some key := by
  obtain ⟨_, keys, lists, members, _⟩ := stored.sees enumeration
  obtain ⟨view, formed, _⟩ := stored
  simp only [findKey, execute_bind, execute_reporting, lists, Except.mapError, execute_lift, Prod.mk.injEq,
    and_true] at finds
  unfold named at finds
  cases searched : keys.find? fun key => key.summary.id.asStr = id with
  | none =>
    rw [searched] at finds
    cases finds
  | some other =>
    rw [searched] at finds
    cases finds
    obtain ⟨owner, holds⟩ := (members key).mp (List.mem_of_find?_eq_some searched)
    have same : key.summary.id.asStr = id := by simpa using List.find?_some searched
    have filed : owner = ⟨id⟩ := (formed.keyed owner key holds).1.symm.trans (congrArg KeyId.mk same)
    rwa [filed] at holds

/-- A key is found only among the records, and finding it leaves the store. -/
theorem meets_findKey (id : String) :
    Program.Meets (attempt enumeration.order faults) (fun place => place = start) (findKey id).run
      (fun place => place = start)
      (fun outcome place => place = start ∧ ∀ key, outcome = .ok key → records ⟨id⟩ = some key) := by
  have looks : (findKey id).run.Issues Looks :=
    (Program.issues_adapt _ looks_list).routine fun keys => Program.issues_check _ _
  have strict : Strict (findKey id).run := (strict_list.adapt _).routine fun keys => strict_check _
  refine (meets_finding looks strict start).weaken (fun _ same => same) (fun _ same => same) ?_
  rintro outcome place ⟨same, finds⟩
  exact ⟨same, fun key succeeded => stored_of_findKey stored (finds key succeeded)⟩

/-- A deletion that is refused has changed no record. -/
theorem stored_of_refused {id : KeyId} {place : Place} (deleting : Deleting start id place)
    (same : SameAnswers start place) : Stored records place := by
  rcases deleting with kept | removed
  · exact stored.kept kept
  · have gone := stored.removed removed
    have absent : records id = none := by
      let enumeration : Enumeration := ⟨fun names => names, fun _ => List.Perm.refl _⟩
      have loads := same.loads enumeration id
      rw [(gone.sees enumeration).1 id, (stored.sees enumeration).1 id, Function.update_self] at loads
      cases holds : records id with
      | none => rfl
      | some key =>
        rw [holds] at loads
        cases loads
    rwa [← absent, Function.update_eq_self] at gone

/-- A command that only looks shows the records as they are. -/
theorem meets_looked {task : Task String Bytes} {command : Command} (same : applied terminal command records = records)
    (looks : task.run.Issues Looks) (strict : Strict task.run)
    (prints : ∀ output, execute enumeration.order task start = (.ok output, start) →
      Prints crates standard terminal records output command) :
    Program.Meets (respond enumeration.order faults terminal) (fun place => place = start) (inStore task).run
      ((purpose crates standard faults terminal command).Between Shows records)
      ((purpose crates standard faults terminal command).Ended Shows records) := by
  refine meets_inStore ((meets_finding looks strict start).weaken (fun _ same => same) ?_ ?_)
  · rintro _ rfl
    exact .inl stored
  · rintro (message | output) place ⟨rfl, finds⟩
    · exact .inl stored
    · refine ⟨?_, prints output (finds output rfl)⟩
      show Stored (applied terminal command records) place
      rwa [same]

/-- Listing the keys does what its purpose says. -/
theorem meets_listing (arguments : List Bytes) :
    Program.Meets (respond enumeration.order faults terminal) (fun place => place = start)
      (Command.routine crates standard (.listing arguments)).run
      ((purpose crates standard faults terminal (.listing arguments)).Between Shows records)
      ((purpose crates standard faults terminal (.listing arguments)).Ended Shows records) := by
  refine meets_looked stored rfl ?_ ?_ fun output lists => ?_
  · exact (Program.issues_check _ _).routine fun format =>
      (Program.issues_adapt _ looks_list).routine fun keys => trivial
  · exact (strict_check _).routine fun format => (strict_list.adapt _).routine fun keys => trivial
  · obtain ⟨_, keys, listed, members, ordered⟩ := stored.sees enumeration
    cases parsed : Tsv.parseFormat arguments with
    | error message =>
      simp only [Tsv.listKeys, execute_bind, execute_lift, parsed, Prod.mk.injEq, reduceCtorEq, false_and] at lists
    | ok format =>
      simp only [Tsv.listKeys, execute_bind, execute_lift, parsed, execute_reporting, listed, Except.mapError,
        execute_pure, Prod.mk.injEq, Except.ok.injEq, and_true] at lists
      exact ⟨format, keys, parsed, ⟨members, ordered⟩, lists.symm⟩

/-- Showing a key does what its purpose says. -/
theorem meets_showing (id : Bytes) :
    Program.Meets (respond enumeration.order faults terminal) (fun place => place = start)
      (Command.routine crates standard (.showing id)).run
      ((purpose crates standard faults terminal (.showing id)).Between Shows records)
      ((purpose crates standard faults terminal (.showing id)).Ended Shows records) := by
  refine meets_looked stored rfl ?_ ?_ fun output shows => ?_
  · exact (Program.issues_check _ _).routine fun text => ((Program.issues_adapt _ looks_list).routine fun keys =>
      Program.issues_check _ _).routine fun key => trivial
  · exact (strict_check _).routine fun text =>
      ((strict_list.adapt _).routine fun keys => strict_check _).routine fun key =>
      trivial
  · cases spelled : fromUtf8 id with
    | none =>
      simp only [showKey, execute_bind, execute_lift, osText, spelled, Prod.mk.injEq, reduceCtorEq, false_and] at shows
    | some text =>
      simp only [showKey, execute_bind, execute_lift, osText, spelled] at shows
      cases found : execute enumeration.order (findKey text) start with
      | mk outcome reached =>
        rw [found] at shows
        cases outcome with
        | error message => simp only [Prod.mk.injEq, reduceCtorEq, false_and] at shows
        | ok key =>
          simp only [execute_pure, Prod.mk.injEq, Except.ok.injEq] at shows
          obtain ⟨rfl, rfl⟩ := shows
          exact ⟨text, key, (fromUtf8_eq_some _ _).mp spelled, stored_of_findKey stored found, rfl⟩

/-- Saving a key does what its purpose says. -/
theorem meets_create (pid : UInt32) (key : StoredKey) :
    Program.Meets (respond enumeration.order faults terminal) (fun place => place = start)
      (Command.routine crates standard (.create pid key)).run
      ((purpose crates standard faults terminal (.create pid key)).Between Shows records)
      ((purpose crates standard faults terminal (.create pid key)).Ended Shows records) := by
  by_cases valid : validateRecord key = .ok ()
  · have changed : applied terminal (.create pid key) records = Function.update records key.summary.id (some key) :=
      if_pos valid
    have published {place : Place} (published : Published start (pathFor key.summary.id) (recordFile key) place) :
        Stored (applied terminal (.create pid key) records) place := by
      rw [changed]
      exact stored.published valid published
    refine Program.Meets.routine (meets_inStore (((KeyStore.meets_save pid key start).adapt _).weaken
      (fun _ same => same) ?_ fun _ _ ended => ended)) (fun _ => Program.meets_done ?_) ?_
    · rintro place (unpublished | replaced)
      · exact .inl (stored.unpublished unpublished)
      · exact .inr (published replaced)
    · rintro place ⟨_ | _, ⟨⟩, replaced⟩
      exact ⟨.inr (published replaced), published replaced, valid, rfl⟩
    · rintro _ place ⟨_ | _, ⟨⟩, unpublished | ⟨unsynced, replaced⟩⟩
      · exact .inl (stored.unpublished unpublished)
      · exact .inr ⟨unsynced, published replaced⟩
  · cases refused : validateRecord key with
    | ok _ => exact absurd refused valid
    | error error =>
      have ends : (Command.routine crates standard (.create pid key)).run =
          .done (.error ("cannot persist the wrapped TPM key: " ++ error.message)) := by
        show (inStore (reporting _ (save pid key)) >>= _ : Routine Bytes).run = _
        rw [save, refused]
        rfl
      exact Purpose.meets_refused _ (show Shows start records from stored) ends

omit stored in
/-- A confirmation leaves the store, and succeeds only if it was given. -/
theorem meets_confirm (confirmed : Bool) (key : StoredKey) :
    Program.Meets (respond enumeration.order faults terminal) (fun place => place = start) (confirm confirmed key).run
      (fun place => place = start)
      (fun outcome place => place = start ∧ (outcome = .ok () → confirmed || consents (terminal .readTtyLine))) := by
  cases confirmed with
  | true =>
    apply Program.meets_done
    rintro _ rfl
    exact ⟨rfl, rfl, fun _ => rfl⟩
  | false =>
    have agrees (operation : SecretEntry.Operation) (place : Place) :
        (respond enumeration.order faults terminal (.tty operation) place).1 = (typed terminal operation place).1 ∧
        (respond enumeration.order faults terminal (.tty operation) place).2 = (typed terminal operation place).2 :=
          ⟨rfl, rfl⟩
    have asks : Program.Meets (typed terminal) (fun place => place = start)
        (SecretEntry.requireConfirmation (question key)).run (fun place => place = start) _ :=
      (Program.issues_any _).meets (fun _ _ _ => rfl) start
    refine (asks.translate agrees).weaken (fun _ same => same) (fun _ same => same) ?_
    rintro _ place ⟨same, rfl⟩
    exact ⟨same, fun succeeded => consents_of_confirmation succeeded⟩

/-- A deletion that succeeds has removed a record of the store with consent. -/
theorem meets_deleteNamed {arguments : List Bytes} {id : String} {confirmed : Bool}
    (parsed : deletionArguments arguments = .ok (utf8 id, confirmed)) :
    Program.Meets (respond enumeration.order faults terminal) (fun place => place = start)
      (deleteNamed id confirmed).run
      ((purpose crates standard faults terminal (.deletion arguments)).Between Shows records)
      (fun outcome place => match outcome with
        | .ok _ => Stored (applied terminal (.deletion arguments) records) place ∧
            ∃ key, records ⟨id⟩ = some key ∧ confirmedDeletion terminal arguments = some ⟨id⟩
        | .error _ => Stored records place ∨
            (Unsynced faults ∧ Stored (applied terminal (.deletion arguments) records) place)) := by
  refine Program.Meets.routine
    (meets_inStore ((meets_findKey stored id).weaken (fun _ same => same) ?_ fun _ _ ended => ended))
    (fun key => ?_) ?_
  · rintro _ rfl
    exact .inl stored
  · apply Program.meets_of_each
    rintro place ⟨rfl, found⟩
    have holds := found key rfl
    obtain ⟨view, formed, stands⟩ := stored
    have identified : key.summary.id = ⟨id⟩ := (formed.keyed _ _ holds).1
    have stored : Stored records place := ⟨view, formed, stands⟩
    refine Program.Meets.routine ((meets_confirm confirmed key).weaken (fun _ same => same) ?_ fun _ _ ended => ended)
      (fun _ => ?_) ?_
    · rintro _ rfl
      exact .inl stored
    · apply Program.meets_of_each
      rintro reached ⟨rfl, consented⟩
      have deletes : confirmedDeletion terminal arguments = some ⟨id⟩ := by
        rw [confirmedDeletion, parsed]
        simp only [consented rfl, ↓reduceIte, fromUtf8_utf8, Option.map_some]
      have changed {later : Place} (removed : Removed reached ⟨id⟩ later) :
          Stored (applied terminal (.deletion arguments) records) later := by
        rw [applied, deletes]
        exact stored.removed removed
      rw [identified]
      refine meets_inStore ((((KeyStore.meets_delete ⟨id⟩ reached).settled).adapt _).weaken (fun _ same => same) ?_ ?_)
      · rintro later (kept | removed)
        · exact .inl (stored.kept kept)
        · exact .inr (changed removed)
      · rintro _ later ⟨_ | _, rfl, ended, deleting⟩
        · rcases ended with same | ⟨unsynced, removed⟩
          · exact .inl (stored_of_refused stored deleting same)
          · exact .inr ⟨unsynced, changed removed⟩
        · exact ⟨changed ended, key, holds, deletes⟩
    · rintro message place ⟨rfl, _⟩
      exact .inl stored
  · rintro message place ⟨rfl, _⟩
    exact .inl stored

/-- Deleting a key does what its purpose says. -/
theorem meets_deletion (arguments : List Bytes) :
    Program.Meets (respond enumeration.order faults terminal) (fun place => place = start)
      (Command.routine crates standard (.deletion arguments)).run
      ((purpose crates standard faults terminal (.deletion arguments)).Between Shows records)
      ((purpose crates standard faults terminal (.deletion arguments)).Ended Shows records) := by
  by_cases accepted : ∃ id confirmed, deletionArguments arguments = .ok (utf8 id, confirmed)
  · obtain ⟨id, confirmed, parsed⟩ := accepted
    have same : Command.routine crates standard (.deletion arguments) = deleteNamed id confirmed >>= fun _ => pure [] :=
      congrArg (· >>= fun _ => pure []) (deleteKey_accepted parsed)
    rw [same]
    refine Program.Meets.routine (meets_deleteNamed stored parsed) (fun _ => Program.meets_done ?_) ?_
    · rintro place ⟨changed, key, holds, consented⟩
      exact ⟨.inr changed, changed, ⟨id⟩, key, consented, holds, rfl⟩
    · exact fun message place ended => ended
  · obtain ⟨message, ends⟩ := deleteKey_ends fun id confirmed parsed => accepted ⟨id, confirmed, parsed⟩
    have refused : (Command.routine crates standard (.deletion arguments)).run = .done (.error message) := by
      show ((deleteKey arguments).run >>= ExceptT.bindCont _) = _
      rw [ends]
      rfl
    exact Purpose.meets_refused _ (show Shows start records from stored) refused

end

/-- Every command serves its purpose, whatever fails and whatever the terminal answers. -/
theorem serves_routine (crates : Crates) (standard : Bytes → Bytes) (enumeration : Enumeration) (faults : Faults)
    (terminal : Terminal) (command : Command) : (purpose crates standard faults terminal command).Serves Shows
      (respond enumeration.order faults terminal) (command.routine crates standard).run := by
  intro start records stored
  cases command with
  | create pid key => exact meets_create stored pid key
  | listing arguments => exact meets_listing stored arguments
  | showing id => exact meets_showing stored id
  | deletion arguments => exact meets_deletion stored arguments

/-! ## Any number of commands -/

/-- A command with what it meets and how it ends. -/
structure Invocation where
  command : Command
  enumeration : Enumeration
  faults : Faults
  terminal : Terminal
  ending : Ending String Bytes

/-- What an invocation asks for. -/
def Invocation.purpose (crates : Crates) (standard : Bytes → Bytes) (invocation : Invocation) : Purpose Records Bytes :=
  KeyCommands.purpose crates standard invocation.faults invocation.terminal invocation.command

/-- The directory after a command, if the command ends so. -/
def step (crates : Crates) (standard : Bytes → Bytes) (place : Place) (invocation : Invocation) : Option Place :=
  settle (respond invocation.enumeration.order invocation.faults invocation.terminal)
    (invocation.command.routine crates standard).run place invocation.ending

/-- The command neither saves a record with this identifier nor deletes it with consent. -/
def Invocation.Spares (invocation : Invocation) (id : KeyId) : Prop :=
  match invocation.command with
  | .create _ key => key.summary.id ≠ id
  | .deletion arguments => confirmedDeletion invocation.terminal arguments ≠ some id
  | _ => True

/-- A command that spares a record has no effect on it. -/
theorem effect_of_spares {crates : Crates} {standard : Bytes → Bytes} {invocation : Invocation} {id : KeyId}
    (spares : invocation.Spares id) (records : Records) :
    (invocation.purpose crates standard).effect records id = records id := by
  show applied invocation.terminal invocation.command records id = records id
  unfold Invocation.Spares at spares
  cases command : invocation.command with
  | create pid key =>
    rw [command] at spares
    rw [applied]
    split
    · exact Function.update_of_ne spares.symm _ _
    · rfl
  | deletion arguments =>
    rw [command] at spares
    cases deletes : confirmedDeletion invocation.terminal arguments with
    | none =>
      simp only [applied, deletes]
    | some other =>
      have apart : id ≠ other := by
        rintro rfl
        exact spares deletes
      simp only [applied, deletes]
      exact Function.update_of_ne apart _ _
  | listing arguments => rfl
  | showing id => rfl

/-- Over any number of key commands, whatever fails, whatever the terminal answers and wherever they
are stopped, the directory holds one map of records, which the commands change in their order: a
success has its effect and prints what is then true, a failure has none unless the directory could not be
synced. When all commands end and sync it, only the successful ones have changed it; and a record is
lost or replaced only by a command that saves its identifier or deletes it with consent. -/
theorem commands_manage_one_store (crates : Crates) (standard : Bytes → Bytes) {start final : Place} {records : Records}
    {invocations : List Invocation} (stored : Stored records start)
    (reached : run (step crates standard) start invocations = some final) :
    ∃ last, Stored last final ∧
      Chain (Invocation.purpose crates standard) Invocation.ending records invocations last ∧
      ((∀ invocation ∈ invocations, Sure (Invocation.purpose crates standard) Invocation.ending invocation) →
        last = invocations.foldl (reported (Invocation.purpose crates standard) Invocation.ending) records) ∧
      ∀ id, (∀ invocation ∈ invocations, invocation.Spares id) → last id = records id := by
  have acts (start : Place) (invocation : Invocation) (final : Place) (records : Records) (stored : Shows start records)
      (taken : step crates standard start invocation = some final) : ∃ later, Shows final later ∧
        Acts (invocation.purpose crates standard) invocation.ending records later :=
    (serves_routine crates standard invocation.enumeration invocation.faults invocation.terminal
      invocation.command).acts
      stored taken
  obtain ⟨last, holds, chain⟩ := chain_of_run acts stored reached
  refine ⟨last, holds, chain, chain.reported_of_sure, fun id spared => ?_⟩
  exact chain.kept (fun records => records id) fun invocation member => effect_of_spares (spared invocation member)

namespace Sample

/-- The owner types this line. -/
def typing (line : Bytes) : Terminal
  | .readTtyLine => (.ok line : Except IoError Bytes)
  | .openTty => (.ok () : Except IoError Unit)
  | .writeTty _ => (.ok () : Except IoError Unit)
  | .flushTty => (.ok () : Except IoError Unit)
  | .dialog .spawn => (.error .noSuchFile : Except IoError Unit)
  | .dialog (.write _) => (.error .noSuchFile : Except IoError Unit)
  | .dialog .flush => (.error .noSuchFile : Except IoError Unit)
  | .dialog .readResponse => (.error "" : Except String Bytes)
  | .dialog .kill => ()
  | .dialog .wait => (.error .noSuchFile : Except IoError Bool)
  | .getAttributes => (.error .noSuchFile : Except IoError SecretEntry.Attributes)
  | .setAttributes _ => (.error .noSuchFile : Except IoError Unit)
  | .readTtyPin _ => (.error "" : Except String Bytes)
  | .readStdinPin _ => (.error "" : Except String Bytes)
  | .environmentVariable _ => (none : Option Bytes)

def crates : Crates := ⟨id, fun _ => [], fun _ _ absent => absurd absent List.not_mem_nil⟩

/-- The order of the directory is one of its enumerations. -/
theorem perm_id (names : List Name) : (id names).Perm names := List.Perm.refl names

/-- A command that nothing hinders. -/
def unhindered (command : Command) (line : Bytes) (outcome : Except String Bytes) : Invocation :=
  ⟨command, ⟨id, perm_id⟩, fun _ => none, typing line, .completed outcome⟩

/-- A command that nothing hinders is sure. -/
theorem sure_unhindered (command : Command) (line : Bytes) (outcome : Except String Bytes) :
    Sure (Invocation.purpose crates id) Invocation.ending (unhindered command line outcome) := by
  refine ⟨⟨outcome, rfl⟩, ?_⟩
  rintro (hindered | hindered) <;> exact hindered rfl

/-- A key is saved and the owner declines to delete it. -/
def session : List Invocation :=
  [unhindered (.create 7 key) [] (.ok (printed [utf8 "k"])),
    unhindered (.deletion [utf8 "k"]) (utf8 "no\n") (.error "operation cancelled")]

end Sample

/-- A session that saves a key, whose deletion the owner then declines. -/
theorem commands_manage_one_store_session : ∃ final last,
    run (step Sample.crates id) .absent Sample.session = some final ∧ Stored last final ∧
      last ⟨"k"⟩ = some Sample.key := by
  have runs : (run (step Sample.crates id) .absent Sample.session).isSome = true := by decide +kernel
  obtain ⟨final, reached⟩ := Option.isSome_iff_exists.mp runs
  obtain ⟨last, stored, _, settled, _⟩ := commands_manage_one_store Sample.crates id stored_absent reached
  refine ⟨final, last, reached, stored, ?_⟩
  rw [settled]
  · rfl
  · intro invocation member
    simp only [Sample.session, List.mem_cons, List.not_mem_nil, or_false] at member
    rcases member with rfl | rfl <;> exact Sample.sure_unhindered _ _ _

end Keyvisor.KeyCommands
