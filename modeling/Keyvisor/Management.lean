import Keyvisor.Foundation.Entries
import Keyvisor.Foundation.Monitor
import Keyvisor.Sharing

/-!
# Management calls that run at once

Command-line processes do not lock the key directory, so the operations of several
saves and deletions can alternate in any order, and any of them can fail. Each call is
followed by a monitor: a save works on temporary files of its own process and gives its
record's name only to a file that holds the complete record, and a deletion unlinks
only its record. What an operation can do to an entry follows from that alone.
-/

namespace Keyvisor.Management

open Foundation Foundation.Directory Foundation.Text RecordCodec KeyStore Sharing

/-- How far a call has come: a save has drafted some contents in a temporary file, or
has no file to publish any more; a deletion has unlinked its record. -/
inductive Stage where
  | begun
  | drafting (temporary : Name) (contents : Bytes)
  | spent
  | removed
  deriving DecidableEq, Repr

/-- The names that only this call's process uses. -/
def temporaries : Change → List Name
  | .save pid key => temporaryNames pid key.summary.id
  | .delete _ => []

/-- The stage after an operation that can fail. -/
def settle (answer : Except IoError Unit) (success failure : Stage) : Stage :=
  match answer with
  | .ok _ => success
  | .error _ => failure

/-- What a management call may do in each stage. -/
def permit (change : Change) (stage : Stage) : Program.Exchange Operation Answer → Option Stage
  | ⟨.createNew name _, answer⟩ =>
    match stage with
    | .begun => if name ∈ temporaries change then some (settle answer (.drafting name []) .begun) else none
    | _ => none
  | ⟨.writeAll name bytes, answer⟩ =>
    match stage with
    | .drafting temporary contents =>
      if name = temporary then some (settle answer (.drafting name (contents ++ bytes)) .spent) else none
    | _ => none
  | ⟨.rename source target, _⟩ =>
    match change, stage with
    | .save _ key, .drafting temporary contents =>
      if source = temporary ∧ target = pathFor key.summary.id ∧ validateRecord key = .ok () ∧
          contents = layout (rawOf key) then some .spent
      else none
    | _, _ => none
  | ⟨.removeFile name, answer⟩ =>
    match change with
    | .save _ _ => if name ∈ temporaries change then some .spent else none
    | .delete id => if name = pathFor id then some (settle answer .removed stage) else none
  | _ => some stage

/-- A deletion that succeeds has unlinked its record. -/
def Ended (change : Change) (stage : Stage) (result : Except StoreError Unit) : Prop :=
  ∀ id, change = .delete id → result = .ok () → stage = .removed

/-! ## Every call keeps to its monitor -/

section

variable {change : Change} {stage : Stage}

/-- Preparing the directory touches no entry. -/
theorem ensureDirectory_complies (mode : Nat) (wrongKind : String) {post : Stage → Except IoError Unit → Prop}
    (holds : ∀ outcome, post stage outcome) :
    Program.Complies (permit change) stage (ensureDirectory mode wrongKind).run post := by
  have protecting : Program.Complies (permit change) stage (demand (protectDirectory mode)).run post :=
    Program.complies_call fun answer => ⟨stage, rfl, holds answer⟩
  refine Program.Complies.routine (Program.complies_observed (Program.complies_call fun found => ?_))
  refine ⟨stage, rfl, Program.continues_ok (Program.Complies.routine ?_)⟩
  cases (found : Except IoError FileKind) with
  | ok kind =>
    simp only [requireDirectory]
    split
    · exact protecting
    · exact holds _
  | error error =>
    simp only [requireDirectory]
    split
    · refine Program.complies_call fun answer => ⟨stage, rfl, ?_⟩
      cases (answer : Except IoError Unit) with
      | ok _ => exact protecting
      | error error => exact holds _
    · exact holds _

/-- The temporary file that was opened is drafted, and still empty. -/
def Created (change : Change) (stage : Stage) (outcome : Except IoError (Option Name)) : Prop :=
  ∀ temporary, outcome = .ok (some temporary) →
    stage = .drafting temporary [] ∧ temporary ∈ temporaries change

/-- A save creates only its own temporary files. -/
theorem createFirst_complies (mode : Nat) (candidates : List Name)
    (own : ∀ candidate ∈ candidates, candidate ∈ temporaries change) :
    Program.Complies (permit change) .begun (createFirst mode candidates).run (Created change) := by
  induction candidates with
  | nil =>
    intro temporary impossible
    cases impossible
  | cons candidate rest inductionHypothesis =>
    have permitted (answer : Except IoError Unit) :
        permit change .begun ⟨.createNew candidate mode, answer⟩ =
          some (settle answer (.drafting candidate []) .begun) := by
      simp only [permit, own candidate List.mem_cons_self, ↓reduceIte]
    refine Program.Complies.routine (Program.complies_observed (Program.complies_call fun answer => ?_))
    refine ⟨_, permitted answer, ?_⟩
    cases (answer : Except IoError Unit) with
    | ok _ =>
      intro temporary same
      cases same
      exact ⟨rfl, own candidate List.mem_cons_self⟩
    | error error =>
      show Program.Complies (permit change) .begun
        (if error.kind = .alreadyExists then createFirst mode rest else throw error : Task IoError _).run _
      split
      · exact inductionHypothesis fun other member => own other (List.mem_cons_of_mem _ member)
      · intro temporary impossible
        cases impossible

end

section

variable {pid : UInt32} {key : StoredKey}

/-- Opening and syncing the directory leave every stage alone. -/
theorem sync_complies {change : Change} {stage : Stage} {post : Stage → Except IoError Unit → Prop}
    (holds : ∀ outcome, post stage outcome) :
    Program.Complies (permit change) stage
      (do demand openDirectory; demand syncDirectory : Task IoError Unit).run post := by
  refine Program.Complies.routine (Program.complies_call fun answer => ⟨stage, rfl, ?_⟩)
  cases (answer : Except IoError Unit) with
  | ok _ => exact Program.complies_call fun answer => ⟨stage, rfl, holds answer⟩
  | error error => exact holds _

/-- The temporary file is renamed only when it holds the record. -/
theorem commit_complies (valid : validateRecord key = .ok ()) (temporary : Name) :
    Program.Complies (permit (.save pid key)) (.drafting temporary [])
      (commit temporary (pathFor key.summary.id) (layout (rawOf key))).run (fun _ _ => True) := by
  have written (answer : Except IoError Unit) :
      permit (.save pid key) (.drafting temporary []) ⟨.writeAll temporary (layout (rawOf key)), answer⟩ =
        some (settle answer (.drafting temporary (layout (rawOf key))) .spent) := by
    simp only [permit, ↓reduceIte, List.nil_append]
  have renamed (answer : Except IoError Unit) :
      permit (.save pid key) (.drafting temporary (layout (rawOf key)))
        ⟨.rename temporary (pathFor key.summary.id), answer⟩ = some .spent := by
    simp only [permit, valid, and_self, ↓reduceIte]
  refine Program.Complies.routine (Program.complies_call fun answer => ⟨_, written answer, ?_⟩)
  cases (answer : Except IoError Unit) with
  | error error => trivial
  | ok _ =>
    refine Program.Complies.routine (Program.complies_call fun answer => ⟨_, rfl, ?_⟩)
    cases (answer : Except IoError Unit) with
    | error error => trivial
    | ok _ =>
      refine Program.Complies.routine (Program.complies_call fun answer => ⟨_, renamed answer, ?_⟩)
      cases (answer : Except IoError Unit) with
      | error error => trivial
      | ok _ => exact sync_complies fun _ => trivial

/-- A failed publication removes its own temporary file. -/
theorem publish_complies (valid : validateRecord key = .ok ()) {temporary : Name}
    (own : temporary ∈ temporaries (.save pid key)) :
    Program.Complies (permit (.save pid key)) (.drafting temporary [])
      (publish temporary (pathFor key.summary.id) (layout (rawOf key))).run (fun _ _ => True) := by
  refine Program.Complies.routine (Program.complies_observed ((commit_complies valid temporary).weaken ?_))
  intro stage outcome _
  refine Program.continues_ok ?_
  cases outcome with
  | ok _ => trivial
  | error error =>
    refine Program.Complies.routine (Program.complies_observed (Program.complies_call fun answer => ?_))
    refine ⟨.spent, ?_, trivial⟩
    simp only [permit, own, ↓reduceIte]

/-- A save keeps to its monitor, whatever is answered. -/
theorem save_complies (pid : UInt32) (key : StoredKey) :
    Program.Complies (permit (.save pid key)) .begun (KeyStore.save pid key).run (fun _ _ => True) := by
  refine Program.Complies.routine (Program.complies_check ?_)
  cases valid : validateRecord key with
  | error error => trivial
  | ok _ =>
    refine Program.continues_ok (Program.Complies.routine (Program.complies_check ?_))
    cases encoded : encode key with
    | error error => trivial
    | ok bytes =>
      obtain ⟨_, rfl⟩ := (encode_eq_ok _ _).mp encoded
      refine Program.continues_ok (Program.Complies.routine (Program.complies_adapt ?_))
      refine ensureDirectory_complies _ _ fun outcome => ?_
      cases outcome with
      | error error => trivial
      | ok _ =>
        refine Program.continues_ok (Program.Complies.routine (Program.complies_adapt ?_))
        refine (createFirst_complies 0o600 _ fun _ member => member).weaken fun stage outcome created => ?_
        rcases outcome with error | _ | temporary
        · trivial
        · trivial
        · obtain ⟨rfl, own⟩ := created temporary rfl
          exact Program.complies_adapt (publish_complies valid own)

end

/-- A deletion keeps to its monitor, whatever is answered. -/
theorem delete_complies (id : KeyId) :
    Program.Complies (permit (.delete id)) .begun (KeyStore.delete id).run (Ended (.delete id)) := by
  have failed (stage : Stage) (error : StoreError) : Ended (.delete id) stage (.error error) := by
    rintro _ _ impossible
    cases impossible
  unfold KeyStore.delete
  split
  · exact failed _ _
  · refine Program.Complies.routine (Program.complies_adapt (Program.complies_call fun found => ⟨.begun, rfl, ?_⟩))
    cases (found : Except IoError (FileKind × Nat)) with
    | error error => exact failed _ _
    | ok metadata =>
      refine Program.continues_ok ?_
      split
      · exact failed _ _
      · refine Program.Complies.routine (Program.complies_adapt (Program.complies_call fun answer => ?_))
        refine ⟨settle answer .removed .begun, by simp only [permit, ↓reduceIte], ?_⟩
        cases (answer : Except IoError Unit) with
        | error error => exact failed _ _
        | ok _ => exact Program.complies_adapt (sync_complies fun _ _ _ _ => rfl)

/-- Every management call keeps to its monitor, whatever is answered. -/
theorem change_complies (change : Change) :
    Program.Complies (permit change) .begun change.routine (Ended change) := by
  cases change with
  | save pid key =>
    refine (save_complies pid key).weaken fun _ _ _ id impossible => ?_
    cases impossible
  | delete id => exact delete_complies id

/-! ## What a permitted operation does to an entry -/

/-- A draft is a temporary file of the call's own with the drafted contents. -/
def Fits (change : Change) (entries : Name → Option File) : Stage → Prop
  | .drafting temporary contents => temporary ∈ temporaries change ∧
      ∃ file, entries temporary = some file ∧ file.contents = contents
  | _ => True

/-- A temporary name is not a record's. -/
theorem temporaries_hidden {change : Change} {name : Name} (own : name ∈ temporaries change) : ¬ Read name := by
  cases change with
  | save pid key =>
    obtain ⟨attempt, _, rfl⟩ := List.mem_map.mp own
    exact fun read => temporaryName_hidden pid key.summary.id attempt _ read rfl
  | delete id => cases own

/-- Processes with different identifiers never use the same temporary name. -/
theorem temporaryName_process {pid other : UInt32} {id otherId : KeyId} {attempt otherAttempt : Nat}
    (same : temporaryName pid id attempt = temporaryName other otherId otherAttempt) : pid = other := by
  have dot : utf8 "." = [46] := by decide
  have stemPlain (id : KeyId) : (46 : UInt8) ∉ fileStem id := fun member =>
    (hexDigit_plain (mem_hexDigits_of_mem_hex member)).2.2.2.2.2.2.1 rfl
  have digitsPlain (number : Nat) : (46 : UInt8) ∉ decimal number := fun member => by
    obtain ⟨low, _⟩ := decimal_digit member
    exact absurd low (by decide)
  have split {left right rest otherRest : Bytes} (plain : (46 : UInt8) ∉ left) (otherPlain : (46 : UInt8) ∉ right)
      (joined : left ++ 46 :: rest = right ++ 46 :: otherRest) : left = right ∧ rest = otherRest := by
    have parts := splitOnce_append plain rest
    rw [joined, splitOnce_append otherPlain] at parts
    exact ⟨(Prod.mk.inj (Option.some.inj parts)).1.symm, (Prod.mk.inj (Option.some.inj parts)).2.symm⟩
  simp only [temporaryName, dot, List.append_assoc, List.cons_append, List.nil_append] at same
  obtain ⟨_, same⟩ := split (stemPlain id) (stemPlain otherId) (List.cons.inj same).2
  obtain ⟨digits, _⟩ := split (digitsPlain _) (digitsPlain _) same
  have read := decimalValue_decimal (2 ^ 32) pid.toNat pid.toNat_lt
  rw [digits, decimalValue_decimal (2 ^ 32) other.toNat other.toNat_lt] at read
  exact UInt32.toNat_inj.mp (Option.some.inj read).symm

section

variable {change : Change} {stage next : Stage} {operation : Operation} {answer : Answer operation}
  {before after : Name → Option File}

/-- What became of an entry after an operation of a call: it is as before, or it is a
temporary file of that process, or it is the record that was saved, or it is what the
deletion unlinks. -/
def Became (change : Change) (operation : Operation) (before after : Name → Option File) (name : Name) : Prop :=
  after name = before name ∨ name ∈ temporaries change ∨
    (∃ pid key file, change = .save pid key ∧ name = pathFor key.summary.id ∧ after name = some file ∧
      decode file.contents = .ok key) ∨
    (operation = .removeFile name ∧ after name = none ∧ ∃ id, change = .delete id ∧ name = pathFor id)

/-- An operation that changes nothing leaves every entry. -/
theorem became_unchanged (same : after = before) (name : Name) : Became change operation before after name :=
  .inl (congrFun same name)

/-- An operation on another file leaves the entry. -/
theorem became_elsewhere {name touched : Name} {file : Option File} (apart : name ≠ touched)
    (same : after = Function.update before touched file) : Became change operation before after name := by
  apply Or.inl
  rw [same, Function.update_of_ne apart]

/-- A file is created only at a temporary name of the call. -/
theorem became_of_createNew {created : Name} {mode : Nat} {answer : Answer (.createNew created mode)}
    (permitted : permit change stage ⟨.createNew created mode, answer⟩ = some next)
    (effect : Effect before after (.createNew created mode) answer) (name : Name) :
    Became change (.createNew created mode) before after name := by
  cases (answer : Except IoError Unit) with
  | error error => exact became_unchanged effect name
  | ok _ =>
    by_cases same : name = created
    · subst same
      simp only [permit] at permitted
      split at permitted
      · split at permitted
        · rename_i own
          exact .inr (.inl own)
        · cases permitted
      · cases permitted
    · exact became_elsewhere same effect

/-- Only the draft is written to. -/
theorem became_of_writeAll {written : Name} {bytes : Bytes} {answer : Answer (.writeAll written bytes)}
    (permitted : permit change stage ⟨.writeAll written bytes, answer⟩ = some next)
    (effect : Effect before after (.writeAll written bytes) answer) (fits : Fits change before stage) (name : Name) :
    Became change (.writeAll written bytes) before after name := by
  by_cases same : name = written
  · subst same
    simp only [permit] at permitted
    split at permitted
    · split at permitted
      · rename_i same
        subst same
        exact .inr (.inl fits.1)
      · cases permitted
    · cases permitted
  · exact .inl (effect.2 name same)

/-- A rename files the draft, which holds the saved record, under the record's name. -/
theorem became_of_rename {source target : Name} {answer : Answer (.rename source target)}
    (permitted : permit change stage ⟨.rename source target, answer⟩ = some next)
    (effect : Effect before after (.rename source target) answer) (fits : Fits change before stage) (name : Name) :
    Became change (.rename source target) before after name := by
  simp only [permit] at permitted
  split at permitted
  · rename_i pid key temporary contents
    split at permitted
    · rename_i proper
      obtain ⟨rfl, rfl, valid, rfl⟩ := proper
      obtain ⟨own, file, drafted, holds⟩ := fits
      cases (answer : Except IoError Unit) with
      | error error => exact became_unchanged effect name
      | ok _ =>
        obtain ⟨moved, found, renamed⟩ := effect
        obtain rfl := Option.some.inj (found.symm.trans drafted)
        by_cases same : name = pathFor key.summary.id
        · refine .inr (.inr (.inl ⟨pid, key, moved, rfl, same, ?_, ?_⟩))
          · rw [renamed, same, Function.update_self]
          · exact (decode_layout _ _).mpr ⟨valid, holds⟩
        · by_cases temporary : name = source
          · exact .inr (.inl (temporary ▸ own))
          · apply Or.inl
            rw [renamed, Function.update_of_ne same, Function.update_of_ne temporary]
    · cases permitted
  · cases permitted

/-- What is removed is a temporary file of a save or the record of a deletion. -/
theorem became_of_removeFile {removed : Name} {answer : Answer (.removeFile removed)}
    (permitted : permit change stage ⟨.removeFile removed, answer⟩ = some next)
    (effect : Effect before after (.removeFile removed) answer) (name : Name) :
    Became change (.removeFile removed) before after name := by
  cases (answer : Except IoError Unit) with
  | error error => exact became_unchanged effect name
  | ok _ =>
    by_cases same : name = removed
    · subst same
      cases change with
      | save pid key =>
        simp only [permit] at permitted
        split at permitted
        · rename_i own
          exact .inr (.inl own)
        · cases permitted
      | delete id =>
        simp only [permit] at permitted
        split at permitted
        · rename_i same
          refine .inr (.inr (.inr ⟨rfl, ?_, id, rfl, same⟩))
          have erased : after = Function.update before name none := effect
          rw [erased, Function.update_self]
        · cases permitted
    · exact became_elsewhere same effect

/-- What becomes of an entry after a permitted operation. -/
theorem became_of_permitted (permitted : permit change stage ⟨operation, answer⟩ = some next)
    (effect : Effect before after operation answer) (fits : Fits change before stage) (name : Name) :
    Became change operation before after name := by
  cases operation with
  | createNew created mode => exact became_of_createNew permitted effect name
  | writeAll written bytes => exact became_of_writeAll permitted effect fits name
  | rename source target => exact became_of_rename permitted effect fits name
  | removeFile removed => exact became_of_removeFile permitted effect name
  | _ => exact became_unchanged effect name

/-- A created file is an empty draft. -/
theorem fits_of_createNew {created : Name} {mode : Nat} {answer : Answer (.createNew created mode)}
    (permitted : permit change stage ⟨.createNew created mode, answer⟩ = some next)
    (effect : Effect before after (.createNew created mode) answer) : Fits change after next := by
  simp only [permit] at permitted
  split at permitted
  · split at permitted
    · rename_i own
      cases (answer : Except IoError Unit) with
      | error error =>
        cases permitted
        trivial
      | ok _ =>
        cases permitted
        have written : after = Function.update before created (some ⟨.regular, mode, []⟩) := effect
        refine ⟨own, ⟨.regular, mode, []⟩, ?_, rfl⟩
        rw [written, Function.update_self]
    · cases permitted
  · cases permitted

/-- A write that succeeds adds to the drafted contents. -/
theorem fits_of_writeAll {written : Name} {bytes : Bytes} {answer : Answer (.writeAll written bytes)}
    (permitted : permit change stage ⟨.writeAll written bytes, answer⟩ = some next)
    (effect : Effect before after (.writeAll written bytes) answer) (fits : Fits change before stage) :
    Fits change after next := by
  simp only [permit] at permitted
  split at permitted
  · split at permitted
    · rename_i same
      subst same
      obtain ⟨own, file, drafted, rfl⟩ := fits
      cases (answer : Except IoError Unit) with
      | error error =>
        cases permitted
        trivial
      | ok _ =>
        cases permitted
        refine ⟨own, { file with contents := file.contents ++ bytes }, ?_, rfl⟩
        rw [effect.1 file drafted, Function.update_self]
    · cases permitted
  · cases permitted

/-- A permitted operation leaves what the next stage needs. -/
theorem fits_of_permitted (permitted : permit change stage ⟨operation, answer⟩ = some next)
    (effect : Effect before after operation answer) (fits : Fits change before stage) :
    Fits change after next := by
  have unchanged (same : after = before) : Fits change after stage := same ▸ fits
  cases operation with
  | createNew created mode => exact fits_of_createNew permitted effect
  | writeAll written bytes => exact fits_of_writeAll permitted effect fits
  | rename source target =>
    simp only [permit] at permitted
    split at permitted
    · split at permitted
      · cases permitted
        trivial
      · cases permitted
    · cases permitted
  | removeFile removed =>
    cases change with
    | save pid key =>
      simp only [permit] at permitted
      split at permitted
      · cases permitted
        trivial
      · cases permitted
    | delete id =>
      simp only [permit] at permitted
      split at permitted
      · cases (answer : Except IoError Unit) with
        | error error =>
          cases permitted
          exact unchanged effect
        | ok _ =>
          cases permitted
          trivial
      · cases permitted
  | _ =>
    cases permitted
    exact unchanged effect

/-- A deletion that has unlinked its record leaves no entry there. -/
theorem removed_of_permitted {id : KeyId}
    (permitted : permit (.delete id) stage ⟨operation, answer⟩ = some .removed)
    (effect : Effect before after operation answer)
    (earlier : stage = .removed → before (pathFor id) = none) : after (pathFor id) = none := by
  have unchanged (same : after = before) (still : some stage = some .removed) : after (pathFor id) = none := by
    rw [same]
    exact earlier (Option.some.inj still)
  cases operation with
  | createNew created mode =>
    simp only [permit, temporaries, List.not_mem_nil, ↓reduceIte] at permitted
    split at permitted <;> cases permitted
  | writeAll written bytes =>
    simp only [permit] at permitted
    split at permitted
    · split at permitted
      · cases (answer : Except IoError Unit) <;> cases permitted
      · cases permitted
    · cases permitted
  | rename source target => cases permitted
  | removeFile removed =>
    simp only [permit] at permitted
    split at permitted
    · rename_i same
      subst same
      cases (answer : Except IoError Unit) with
      | error error => exact unchanged effect permitted
      | ok _ =>
        have erased : after = Function.update before (pathFor id) none := effect
        rw [erased, Function.update_self]
    · cases permitted
  | _ => exact unchanged effect permitted

end

/-! ## The calls in progress -/

/-- The call saves a record with this identifier. -/
def saves (id : KeyId) : Change → Bool
  | .save _ key => key.summary.id = id
  | .delete _ => false

/-- Two saves by one process, which runs only one of them. -/
def sharesProcess : Change → Change → Bool
  | .save pid _, .save other _ => pid = other
  | _, _ => false

/-- A call in progress. It is contested when a save of the identifier it touches was
in progress at some moment of it. -/
structure Call where
  change : Change
  routine : Program Operation Answer (Except StoreError Unit)
  stage : Stage
  contested : Bool

/-- A call notes that a save of its identifier begins. -/
def Call.contest (change : Change) (call : Call) : Call :=
  { call with contested := call.contested || saves call.change.touched change }

/-- The call after an operation of its own. -/
def Call.answered (call : Call) (operation : Operation)
    (next : Answer operation → Program Operation Answer (Except StoreError Unit)) (answer : Answer operation) :
    Call :=
  { call with
    routine := next answer
    stage := (permit call.change call.stage ⟨operation, answer⟩).getD call.stage }

/-- The directory, the calls in progress, and the identifiers whose deletion is in
force: it returned successfully, and no save of the identifier has begun since or was
in progress at the same time, which could take effect after it. -/
structure State where
  place : Place
  calls : List Call
  deleted : List KeyId

/-- The changes in progress. -/
def State.changes (state : State) : List Change := state.calls.map Call.change

/-- A call begins, takes one step, which may fail, or returns. -/
inductive Action where
  | begin (change : Change)
  | manage (call : Nat) (faults : Faults)
  | finish (call : Nat)

/-- A deletion that has returned successfully is in force. -/
def deletedBy (call : Call) (result : Except StoreError Unit) (deleted : List KeyId) : List KeyId :=
  match call.change, result with
  | .delete id, .ok _ => if call.contested then deleted else id :: deleted
  | _, _ => deleted

/-- One step of one call, its return, or the beginning of a change. -/
def step (state : State) : Action → Option State
  | .begin change =>
    if state.changes.any (sharesProcess change) then none
    else some { state with
      calls := state.calls.map (Call.contest change) ++
        [⟨change, change.routine, .begun, state.changes.any (saves change.touched)⟩]
      deleted := state.deleted.filter fun id => !saves id change }
  | .manage index faults =>
    match state.calls[index]? with
    | some call =>
      match call.routine with
      | .ask operation next =>
        let answered := attempt id faults operation state.place
        some { state with
          place := answered.2
          calls := state.calls.set index (call.answered operation next answered.1) }
      | .done _ => none
    | none => none
  | .finish index =>
    match state.calls[index]? with
    | some call =>
      match call.routine with
      | .done result => some { state with
          calls := state.calls.eraseIdx index
          deleted := deletedBy call result state.deleted }
      | .ask _ _ => none
    | none => none

/-- The entry that a step is about to unlink. -/
def unlinks (state : State) : Action → Option Name
  | .manage index _ =>
    match (state.calls[index]?).map Call.routine with
    | some (.ask (.removeFile name) _) => some name
    | _ => none
  | _ => none

/-- No call in progress saves the identifier. -/
def Unsaved (state : State) (id : KeyId) : Prop := ∀ change ∈ state.changes, saves id change = false

/-- Every entry that a listing reads is the record of its name. -/
def Filed (entries : Name → Option File) : Prop :=
  ∀ name file, isRecordName name → entries name = some file →
    ∃ key, decode file.contents = .ok key ∧ name = pathFor key.summary.id

/-- What is known of a call in progress. -/
structure Followed (state : State) (call : Call) : Prop where
  complies : Program.Complies (permit call.change) call.stage call.routine (Ended call.change)
  fits : Fits call.change state.place.entry call.stage
  gone : ∀ id, call.change = .delete id → call.contested = false → call.stage = .removed →
    state.place.entry (pathFor id) = none
  unsaved : ∀ id, call.change = .delete id → call.contested = false → Unsaved state id

/-- What holds in every state of a run. -/
structure Invariant (state : State) : Prop where
  filed : Filed state.place.entry
  apart : state.changes.Pairwise fun left right => sharesProcess left right = false
  followed : ∀ call ∈ state.calls, Followed state call
  deleted : ∀ id ∈ state.deleted, state.place.entry (pathFor id) = none ∧ Unsaved state id

/-- Sharing a process is mutual. -/
theorem sharesProcess_comm (left right : Change) : sharesProcess left right = sharesProcess right left := by
  cases left with
  | delete id => cases right <;> rfl
  | save pid key =>
    cases right with
    | delete id => rfl
    | save other otherKey => simp only [sharesProcess, eq_comm]

/-- Different processes use different temporary names. -/
theorem temporaries_apart {left right : Change} (apart : sharesProcess left right = false) {name : Name}
    (own : name ∈ temporaries left) : name ∉ temporaries right := by
  intro shared
  cases left with
  | delete id => cases own
  | save pid key =>
    cases right with
    | delete id => cases shared
    | save other otherKey =>
      obtain ⟨_, _, rfl⟩ := List.mem_map.mp own
      obtain ⟨_, _, same⟩ := List.mem_map.mp shared
      exact absurd (temporaryName_process same).symm (of_decide_eq_false apart)

/-- A call of another process begins in a directory that it leaves alone. -/
theorem invariant_begin {state next : State} {change : Change} (holds : Invariant state)
    (taken : step state (.begin change) = some next) : Invariant next := by
  simp only [step] at taken
  split at taken
  · cases taken
  · rename_i apart
    cases taken
    have others (other : Change) (member : other ∈ state.changes) : sharesProcess other change = false := by
      rw [sharesProcess_comm, Bool.eq_false_iff]
      exact fun shared => apart (List.any_eq_true.mpr ⟨other, member, shared⟩)
    have changes : (state.calls.map (Call.contest change) ++
        [(⟨change, change.routine, .begun, state.changes.any (saves change.touched)⟩ : Call)]).map Call.change =
          state.changes ++ [change] := by
      rw [List.map_append, List.map_map]
      rfl
    have grown {id : KeyId} (unsaved : Unsaved state id) (other : saves id change = false) :
        ∀ current ∈ state.changes ++ [change], saves id current = false := by
      intro current member
      rcases List.mem_append.mp member with earlier | last
      · exact unsaved current earlier
      · rw [List.mem_singleton.mp last]
        exact other
    refine ⟨holds.filed, ?_, ?_, ?_⟩
    · rw [State.changes, changes]
      refine List.pairwise_append.mpr ⟨holds.apart, List.pairwise_singleton _ _, ?_⟩
      intro other member last same
      rw [List.mem_singleton.mp same]
      exact others other member
    · intro call member
      rcases List.mem_append.mp member with earlier | last
      · obtain ⟨old, present, rfl⟩ := List.mem_map.mp earlier
        have followed := holds.followed old present
        refine ⟨followed.complies, followed.fits, ?_, ?_⟩
        · intro id deletes free removed
          exact followed.gone id deletes (Bool.or_eq_false_iff.mp free).1 removed
        · intro id deletes free
          obtain ⟨free, other⟩ := Bool.or_eq_false_iff.mp free
          rw [show old.change = .delete id from deletes] at other
          rw [Unsaved, State.changes, changes]
          exact grown (followed.unsaved id deletes free) other
      · rw [List.mem_singleton.mp last]
        refine ⟨change_complies change, trivial, nofun, ?_⟩
        rintro id rfl free
        rw [Unsaved, State.changes, changes]
        refine grown (fun current present => ?_) rfl
        rw [Bool.eq_false_iff]
        exact fun saved => Bool.eq_false_iff.mp free (List.any_eq_true.mpr ⟨current, present, saved⟩)
    · intro id member
      obtain ⟨before, other⟩ := List.mem_filter.mp member
      obtain ⟨absent, unsaved⟩ := holds.deleted id before
      refine ⟨absent, ?_⟩
      rw [Unsaved, State.changes, changes]
      exact grown unsaved (by simpa using other)

/-- An operation of a call in progress: what it did, and what the call has become. -/
theorem manage_cases {state next : State} {index : Nat} {faults : Faults}
    (taken : step state (.manage index faults) = some next) :
    ∃ call operation continuation, state.calls[index]? = some call ∧ call.routine = .ask operation continuation ∧
      next = { state with
        place := (attempt id faults operation state.place).2
        calls := state.calls.set index
          (call.answered operation continuation (attempt id faults operation state.place).1) } := by
  simp only [step] at taken
  split at taken
  · rename_i call found
    split at taken
    · rename_i operation continuation asks
      exact ⟨call, operation, continuation, found, asks, (Option.some.inj taken).symm⟩
    · cases taken
  · cases taken

/-- What a step of a call leaves of each entry. -/
theorem became_of_manage (faults : Faults) {state : State} {call : Call} {operation : Operation}
    {continuation : Answer operation → Program Operation Answer (Except StoreError Unit)}
    (followed : Followed state call) (asks : call.routine = .ask operation continuation) (name : Name) :
    Became call.change operation state.place.entry (attempt id faults operation state.place).2.entry name := by
  have complies := followed.complies
  rw [asks] at complies
  obtain ⟨reached, permitted, _⟩ := complies (attempt id faults operation state.place).1
  exact became_of_permitted permitted (effect_attempt id faults operation state.place) followed.fits name

section

variable {change : Change} {operation : Operation} {before after : Name → Option File}

/-- An identifier that is not being saved stays absent. -/
theorem absent_of_became {id : KeyId} (became : Became change operation before after (pathFor id))
    (unsaved : saves id change = false) (absent : before (pathFor id) = none) : after (pathFor id) = none := by
  rcases became with same | own | ⟨pid, key, file, rfl, same, _, _⟩ | ⟨_, removed, _⟩
  · rw [same, absent]
  · exact absurd (.inr ⟨id, rfl⟩) (temporaries_hidden own)
  · exact absurd (pathFor_injective same).symm (of_decide_eq_false unsaved)
  · exact removed

/-- A record stays present unless it is unlinked. -/
theorem present_of_became {id : KeyId} (became : Became change operation before after (pathFor id))
    (kept : operation ≠ .removeFile (pathFor id)) (present : before (pathFor id) ≠ none) :
    after (pathFor id) ≠ none := by
  rcases became with same | own | ⟨_, _, _, _, _, stored, _⟩ | ⟨unlinked, _⟩
  · rw [same]
    exact present
  · exact absurd (.inr ⟨id, rfl⟩) (temporaries_hidden own)
  · rw [stored]
    nofun
  · exact absurd unlinked kept

/-- Every record stays filed under its own name. -/
theorem filed_of_became (became : ∀ name, Became change operation before after name) (filed : Filed before) :
    Filed after := by
  intro name file named found
  rcases became name with same | own | ⟨_, key, stored, _, rfl, holds, decodes⟩ | ⟨_, removed, _⟩
  · exact filed name file named (same ▸ found)
  · exact absurd (.inl named) (temporaries_hidden own)
  · obtain rfl := Option.some.inj (holds.symm.trans found)
    exact ⟨key, decodes, rfl⟩
  · rw [removed] at found
    cases found

/-- Another process's draft is left alone. -/
theorem fits_of_became {other : Change} {stage : Stage} (became : ∀ name, Became change operation before after name)
    (apart : sharesProcess other change = false) (fits : Fits other before stage) : Fits other after stage := by
  cases stage with
  | drafting temporary contents =>
    obtain ⟨own, file, drafted, holds⟩ := fits
    refine ⟨own, file, ?_, holds⟩
    rcases became temporary with same | shared | ⟨_, key, _, _, same, _, _⟩ | ⟨_, _, id, _, same⟩
    · rw [same, drafted]
    · exact absurd shared (temporaries_apart apart own)
    · exact absurd (.inr ⟨_, same⟩) (temporaries_hidden own)
    · exact absurd (.inr ⟨_, same⟩) (temporaries_hidden own)
  | _ => trivial

end

/-- Two calls at different positions belong to different processes. -/
theorem Invariant.apart_at {state : State} (holds : Invariant state) {index other : Nat} {call another : Call}
    (here : state.calls[index]? = some call) (there : state.calls[other]? = some another)
    (different : index ≠ other) : sharesProcess another.change call.change = false := by
  have ordered := List.pairwise_iff_getElem.mp holds.apart
  obtain ⟨within, rfl⟩ := List.getElem?_eq_some_iff.mp here
  obtain ⟨otherWithin, rfl⟩ := List.getElem?_eq_some_iff.mp there
  have bound : index < state.changes.length := by simpa [State.changes] using within
  have otherBound : other < state.changes.length := by simpa [State.changes] using otherWithin
  rcases Nat.lt_or_gt_of_ne different with before | after
  · have apart := ordered index other bound otherBound before
    rw [sharesProcess_comm]
    simpa [State.changes] using apart
  · have apart := ordered other index otherBound bound after
    simpa [State.changes] using apart

/-- An operation of a call keeps what is known of every call. -/
theorem invariant_manage {state next : State} {index : Nat} {faults : Faults} (holds : Invariant state)
    (taken : step state (.manage index faults) = some next) : Invariant next := by
  obtain ⟨call, operation, continuation, here, asks, rfl⟩ := manage_cases taken
  have followed := holds.followed call (List.mem_of_getElem? here)
  have became := became_of_manage faults followed asks
  have complies := followed.complies
  rw [asks] at complies
  obtain ⟨reached, permitted, continues⟩ := complies (attempt id faults operation state.place).1
  have advanced : call.answered operation continuation (attempt id faults operation state.place).1 =
      ⟨call.change, continuation (attempt id faults operation state.place).1, reached, call.contested⟩ := by
    rw [Call.answered, permitted, Option.getD_some]
  rw [advanced]
  have changes : (state.calls.set index
      ⟨call.change, continuation (attempt id faults operation state.place).1, reached, call.contested⟩).map
        Call.change = state.changes := by
    obtain ⟨within, rfl⟩ := List.getElem?_eq_some_iff.mp here
    have bound : index < state.changes.length := by simpa [State.changes] using within
    have kept : state.changes.set index state.changes[index] = state.changes := List.set_getElem_self bound
    simpa [State.changes] using kept
  have unsavedHere {id : KeyId} (unsaved : Unsaved state id) : saves id call.change = false :=
    unsaved call.change (List.mem_map_of_mem (List.mem_of_getElem? here))
  refine ⟨filed_of_became became holds.filed, ?_, ?_, ?_⟩
  · rw [State.changes, changes]
    exact holds.apart
  · intro current member
    obtain ⟨position, there⟩ := List.mem_iff_getElem?.mp member
    by_cases same : index = position
    · subst same
      rw [List.getElem?_set_self (List.getElem?_eq_some_iff.mp here).1] at there
      cases there
      refine ⟨continues, ?_, ?_, ?_⟩
      · exact fits_of_permitted permitted (effect_attempt id faults operation state.place) followed.fits
      · intro id deletes free removed
        have removing := permitted
        rw [show reached = .removed from removed, show call.change = .delete id from deletes] at removing
        exact removed_of_permitted removing (effect_attempt _ faults operation state.place)
          fun before => followed.gone id deletes free before
      · intro id deletes free
        rw [Unsaved, State.changes, changes]
        exact followed.unsaved id deletes free
    · rw [List.getElem?_set_ne same] at there
      have other := holds.followed current (List.mem_of_getElem? there)
      refine ⟨other.complies, fits_of_became became (holds.apart_at here there same) other.fits, ?_, ?_⟩
      · intro id deletes free removed
        exact absent_of_became (became _) (unsavedHere (other.unsaved id deletes free))
          (other.gone id deletes free removed)
      · intro id deletes free
        rw [Unsaved, State.changes, changes]
        exact other.unsaved id deletes free
  · intro id member
    obtain ⟨absent, unsaved⟩ := holds.deleted id member
    refine ⟨absent_of_became (became _) (unsavedHere unsaved) absent, ?_⟩
    rw [Unsaved, State.changes, changes]
    exact unsaved

/-- A deletion that returns successfully is in force, unless it was contested. -/
theorem invariant_finish {state next : State} {index : Nat} (holds : Invariant state)
    (taken : step state (.finish index) = some next) : Invariant next := by
  simp only [step] at taken
  split at taken
  · rename_i call here
    split at taken
    · rename_i result returned
      cases taken
      have fewer : ((state.calls.eraseIdx index).map Call.change).Sublist state.changes :=
        (List.eraseIdx_sublist _ _).map _
      have shrunk {id : KeyId} (unsaved : Unsaved state id) :
          ∀ change ∈ (state.calls.eraseIdx index).map Call.change, saves id change = false :=
        fun change member => unsaved change (fewer.mem member)
      have followed := holds.followed call (List.mem_of_getElem? here)
      refine ⟨holds.filed, holds.apart.sublist fewer, ?_, ?_⟩
      · intro current member
        have before := holds.followed current (List.mem_of_mem_eraseIdx member)
        exact ⟨before.complies, before.fits, before.gone, fun id deletes free =>
          shrunk (before.unsaved id deletes free)⟩
      · intro id member
        have earlier (listed : id ∈ state.deleted) : state.place.entry (pathFor id) = none ∧
            ∀ change ∈ (state.calls.eraseIdx index).map Call.change, saves id change = false :=
          ⟨(holds.deleted id listed).1, shrunk (holds.deleted id listed).2⟩
        have complies := followed.complies
        rw [returned] at complies
        simp only [deletedBy] at member
        split at member
        · rename_i removed _ deletes
          split at member
          · exact earlier member
          · rename_i free
            rcases List.mem_cons.mp member with rfl | listed
            · have uncontested : call.contested = false := Bool.eq_false_iff.mpr free
              exact ⟨followed.gone _ deletes uncontested (complies _ deletes rfl),
                shrunk (followed.unsaved _ deletes uncontested)⟩
            · exact earlier listed
        · exact earlier member
    · cases taken
  · cases taken

/-- Every step keeps the invariant, whatever fails. -/
theorem invariant_step {state next : State} {action : Action} (holds : Invariant state)
    (taken : step state action = some next) : Invariant next := by
  cases action with
  | begin change => exact invariant_begin holds taken
  | manage index faults => exact invariant_manage holds taken
  | finish index => exact invariant_finish holds taken

/-- A step that does not unlink a record leaves it there. -/
theorem present_step {state next : State} {action : Action} (holds : Invariant state)
    (taken : step state action = some next) {id : KeyId} (kept : unlinks state action ≠ some (pathFor id))
    (present : state.place.entry (pathFor id) ≠ none) : next.place.entry (pathFor id) ≠ none := by
  cases action with
  | begin change =>
    simp only [step] at taken
    split at taken
    · cases taken
    · cases taken
      exact present
  | finish index =>
    simp only [step] at taken
    split at taken
    · split at taken
      · cases taken
        exact present
      · cases taken
    · cases taken
  | manage index faults =>
    obtain ⟨call, operation, continuation, here, asks, rfl⟩ := manage_cases taken
    have followed := holds.followed call (List.mem_of_getElem? here)
    refine present_of_became (became_of_manage faults followed asks _) ?_ present
    rintro rfl
    apply kept
    simp only [unlinks, here, Option.map_some, asks]

/-- A well-formed store that nobody is changing. -/
theorem invariant_initial {records : Records} {place : Place} (stored : Stored records place) :
    Invariant ⟨place, [], []⟩ := by
  refine ⟨fun name file named found => ?_, List.Pairwise.nil, nofun, nofun⟩
  have looked : place.lookup name = .ok file := by
    cases place with
    | absent => cases found
    | occupied kind => cases found
    | directory mode files => rw [Place.lookup, show files.lookup name = some file from found, Option.elim_some]
  obtain ⟨key, mode, same, _, holds, decodes⟩ := stored_of_present stored named ⟨file, looked⟩
  obtain rfl := Except.ok.inj (looked.symm.trans holds)
  exact ⟨key, decodes, same⟩

end Keyvisor.Management
