import Keyvisor.Durability
import Keyvisor.Foundation.Transition

/-!
# The store that the agent and the command line share

The agent lists the key directory one operation at a time, while a command-line
process saves and deletes records in it, also one operation at a time and without a
lock. The state keeps, beside the two routines in progress, what a reader of the run
needs: the record names that the listing has enumerated and not yet read, every place
of the directory since the listing was called, and the identifiers that were touched
since then.

A listing fails when an entry vanishes between its enumeration and its reading. As
long as that does not happen it returns every untouched record once, and nothing that
was not stored during the call.
-/

namespace Keyvisor.Sharing

open Foundation Foundation.Directory RecordCodec KeyStore

/-- One management call of the command line. -/
inductive Change where
  | save (pid : UInt32) (key : StoredKey)
  | delete (id : KeyId)

namespace Change

/-- The call of the store that a change is. -/
def routine : Change → Program Operation Answer (Except StoreError Unit)
  | save pid key => (KeyStore.save pid key).run
  | delete id => (KeyStore.delete id).run

/-- The identifier that the call touches. -/
def touched : Change → KeyId
  | save _ key => key.summary.id
  | delete id => id

/-- What the identifier holds after a completed call. -/
def value : Change → Option StoredKey
  | save _ key => some key
  | delete _ => none

end Change

abbrev Listing := Program Operation Answer (Except StoreError (List StoredKey))

/-- The directory, a listing with what it still reads and has seen, the identifiers touched
meanwhile, and the change in progress. -/
structure State where
  place : Place
  listing : Option Listing
  awaited : List Name
  seen : List Place
  touched : List KeyId
  change : Option (Change × Program Operation Answer (Except StoreError Unit))

/-- No listing was called and nothing is being changed. -/
def State.initial (place : Place) : State := ⟨place, none, [], [], [], none⟩

/-- A listing is called or takes one step, or a management call begins, takes one
step or returns. Management calls never list the directory, so their steps need no
order of entries. -/
inductive Action where
  | call
  | list (enumeration : Enumeration)
  | begin (change : Change)
  | manage
  | finish

/-- The names that remain to be read after an operation of the listing. -/
def awaitedAfter : (operation : Operation) → Answer operation → List Name → List Name
  | .readDirectory, .ok names, _ => names.filter isRecordName
  | .read name, _, awaited => awaited.erase name
  | _, _, awaited => awaited

/-- One step of the listing or of a management call. -/
def step (state : State) : Action → Option State
  | .call =>
    match state.listing with
    | some (.ask _ _) => none
    | _ => some { state with
        listing := some KeyStore.list.run
        awaited := []
        seen := [state.place]
        touched := state.change.toList.map fun current => current.1.touched }
  | .list enumeration =>
    match state.listing with
    | some (.ask operation next) =>
      let answered := perform enumeration.order operation state.place
      some { state with
        place := answered.2
        listing := some (next answered.1)
        awaited := awaitedAfter operation answered.1 state.awaited
        seen := state.seen ++ [answered.2] }
    | _ => none
  | .begin change =>
    match state.change with
    | none => some { state with
        change := some (change, change.routine)
        touched := change.touched :: state.touched }
    | some _ => none
  | .manage =>
    match state.change with
    | some (change, .ask operation next) =>
      let answered := perform (fun names => names) operation state.place
      some { state with
        place := answered.2
        change := some (change, next answered.1)
        seen := state.seen ++ [answered.2] }
    | _ => none
  | .finish =>
    match state.change with
    | some (_, .done _) => some { state with change := none }
    | _ => none

/-- The entry that the next step of the management call unlinks. -/
def State.unlinks (state : State) : Option Name :=
  match state.change with
  | some (_, .ask (.removeFile name) _) => some name
  | _ => none

/-- The step does not unlink an entry that was enumerated and not yet read. -/
def Spares (state : State) : Action → Prop
  | .manage => ∀ name ∈ state.unlinks, name ∉ state.awaited
  | _ => True

instance (state : State) (action : Action) : Decidable (Spares state action) :=
  match action with
  | .manage => inferInstanceAs (Decidable (∀ name ∈ state.unlinks, name ∉ state.awaited))
  | .call => .isTrue trivial
  | .list _ => .isTrue trivial
  | .begin _ => .isTrue trivial
  | .finish => .isTrue trivial

/-- The record can be loaded there. -/
def Has (place : Place) (key : StoredKey) : Prop :=
  (execute (fun names => names) (load key.summary.id) place).1 = .ok key

/-! ## The listing's own steps -/

/-- The listing with these names left to read. -/
def remaining (names : List Name) (keys : List StoredKey) : Task StoreError (List StoredKey) := do
  let found ← names.foldlM listEntry keys
  return found.mergeSort idLe

/-- The listing in the middle of one entry, whose kind it has tested. -/
def fetching (name : Name) (names : List Name) (keys : List StoredKey) : Task StoreError (List StoredKey) := do
  let bytes ← reporting .io (demand (read name))
  let key ← decode bytes
  remaining names (keys ++ [key])

/-- Names that are not record names are passed over without a question. -/
theorem foldlM_filter (names : List Name) (keys : List StoredKey) :
    names.foldlM listEntry keys = (names.filter isRecordName).foldlM listEntry keys := by
  induction names generalizing keys with
  | nil => rfl
  | cons name rest inductionHypothesis =>
    by_cases named : isRecordName name = true
    · rw [List.filter_cons_of_pos named, List.foldlM_cons, List.foldlM_cons]
      exact congrArg _ (funext inductionHypothesis)
    · have other : extension name ≠ some (Text.utf8 "key") := by simpa [isRecordName] using named
      rw [List.filter_cons_of_neg named, ← inductionHypothesis, List.foldlM_cons]
      simp only [listEntry, other, ne_eq, not_false_eq_true, ↓reduceIte]
      rfl

/-- The first question of a listing. -/
theorem list_run : KeyStore.list.run = .ask .readDirectory (fun entries => (listEntries entries).run) := rfl

/-- An enumerated directory is read name by name. -/
theorem listEntries_run (names : List Name) :
    listEntries (.ok names) = remaining (names.filter isRecordName) [] := by
  simp only [listEntries, remaining]
  rw [foldlM_filter]

/-- The question about the kind of the next entry. -/
def tested (name : Name) (names : List Name) (keys : List StoredKey) :
    Except IoError FileKind → Task StoreError (List StoredKey)
  | .ok kind => if kind ≠ .regular then throw .invalidRecord else fetching name names keys
  | .error error => throw (.io error)

/-- The question about the bytes of the next entry. -/
def fetched (names : List Name) (keys : List StoredKey) :
    Except IoError Bytes → Task StoreError (List StoredKey)
  | .ok bytes =>
    match decode bytes with
    | .ok key => remaining names (keys ++ [key])
    | .error error => throw error
  | .error error => throw (.io error)

/-- A record name is first looked at. -/
theorem remaining_run {name : Name} (named : isRecordName name) (names : List Name) (keys : List StoredKey) :
    (remaining (name :: names) keys).run =
      .ask (.entryKind name) (fun answer => (tested name names keys answer).run) := by
  have recorded : extension name = some (Text.utf8 "key") := of_decide_eq_true named
  simp only [remaining, List.foldlM_cons, listEntry, recorded, ne_eq, not_true_eq_false, ↓reduceIte]
  refine congrArg (Program.ask (Operation.entryKind name)) (funext fun answer => ?_)
  cases answer with
  | error error => rfl
  | ok kind =>
    by_cases regular : kind = .regular
    · subst regular
      refine congrArg (Program.ask (Operation.read name)) (funext fun bytes => ?_)
      cases bytes with
      | error error => rfl
      | ok bytes =>
        simp only [Program.bind, Function.comp_apply, Except.mapError, ExceptT.bindCont]
        cases decode bytes with
        | error error => rfl
        | ok key => rfl
    · simp only [Program.bind, Function.comp_apply, Except.mapError, ExceptT.bindCont, tested, regular, ne_eq,
        not_false_eq_true, ↓reduceIte]
      rfl

/-- A record file is then read. -/
theorem fetching_run (name : Name) (names : List Name) (keys : List StoredKey) :
    (fetching name names keys).run = .ask (.read name) (fun answer => (fetched names keys answer).run) := by
  refine congrArg (Program.ask (Operation.read name)) (funext fun answer => ?_)
  cases answer with
  | error error => rfl
  | ok bytes =>
    simp only [Program.bind, Function.comp_apply, Except.mapError, ExceptT.bindCont, fetched]
    cases decode bytes with
    | error error => rfl
    | ok key => rfl

/-! ## The management calls -/

/-- The entry is there. -/
def Present (place : Place) (name : Name) : Prop := ∃ file, place.lookup name = .ok file

/-- Only a temporary file is ever moved away. -/
def Moves : Operation → Prop
  | .rename source _ => isRecordName source = false
  | _ => True

/-- An entry stays unless it is unlinked or moved away. -/
theorem present_perform {order : List Name → List Name} {operation : Operation} {place : Place} {name : Name}
    (present : Present place name) (kept : operation ≠ .removeFile name)
    (stays : ∀ target, operation ≠ .rename name target) :
    Present (perform order operation place).2 name := by
  cases place with
  | absent =>
    obtain ⟨_, impossible⟩ := present
    cases impossible
  | occupied kind =>
    obtain ⟨_, impossible⟩ := present
    cases impossible
  | directory mode files =>
    have member : name ∈ files := by
      obtain ⟨file, found⟩ := present
      rw [← AList.lookup_isSome]
      cases held : files.lookup name with
      | none => simp [Place.lookup, held] at found
      | some file => rfl
    have holds {mode : Nat} {files : Files} (member : name ∈ files) : Present (.directory mode files) name := by
      obtain ⟨file, held⟩ := Option.isSome_iff_exists.mp (AList.lookup_isSome.mpr member)
      exact ⟨file, by simp [Place.lookup, held]⟩
    cases operation with
    | createNew candidate fileMode =>
      apply holds
      simp only [Files.createNew]
      split
      · exact member
      · exact AList.mem_insert _ |>.mpr (.inr member)
    | writeAll target bytes =>
      apply holds
      simp only [Files.append]
      split
      · exact member
      · exact AList.mem_insert _ |>.mpr (.inr member)
    | rename source target =>
      have other : name ≠ source := fun same => stays target (by rw [same])
      apply holds
      simp only [Files.rename]
      split
      · exact member
      · split
        · exact member
        · exact AList.mem_insert _ |>.mpr (.inr (AList.mem_erase.mpr ⟨other, member⟩))
    | removeFile target =>
      have other : name ≠ target := fun same => kept (by rw [same])
      apply holds
      simp only [Files.remove]
      split
      · exact member
      · split
        · exact member
        · exact AList.mem_erase.mpr ⟨other, member⟩
    | _ => exact holds member

/-- A routine that moves only temporary files, whatever it returns. -/
def Moving {α : Type} (program : Program Operation Answer α) : Prop := program.Ensures Moves (fun _ => True)

/-- A fallible sequence of such routines. -/
theorem Moving.routine {ε α β : Type} {task : Task ε α} {next : α → Task ε β} (first : Moving task.run)
    (rest : ∀ value, Moving (next value).run) : Moving (task >>= next).run := by
  refine Program.Ensures.bind first fun outcome _ => ?_
  cases outcome with
  | ok value => exact rest value
  | error error => trivial

/-- A translated error moves nothing more. -/
theorem Moving.reporting {ε δ α : Type} {task : Task ε α} (report : ε → δ) (moving : Moving task.run) :
    Moving (reporting report task).run :=
  Program.Ensures.bind (β := Except δ α) moving fun _ _ => trivial

/-- An observed outcome moves what it moves alone. -/
theorem Moving.observe {ε α : Type} {outcome : Outcome α} (moving : Moving outcome) :
    Moving (observe outcome : Task ε _).run :=
  Program.Ensures.bind (β := Except ε (Except IoError α)) moving fun _ _ => trivial

/-- A call moves what its operation moves. -/
theorem moving_call {operation : Operation} (moves : Moves operation) :
    Moving (Program.call operation : Program Operation Answer _) := ⟨moves, fun _ => trivial⟩

/-- A known result moves nothing. -/
theorem moving_lift {ε α : Type} (result : Except ε α) : Moving (liftM result : Task ε α).run := by
  cases result <;> trivial

/-- The file that is opened is one of the candidates. -/
theorem ensures_createFirst (mode : Nat) (candidates : List Name) :
    (createFirst mode candidates).run.Ensures Moves (fun outcome => ∀ chosen, outcome = .ok chosen →
      ∀ temporary, chosen = some temporary → temporary ∈ candidates) := by
  induction candidates with
  | nil =>
    intro chosen same temporary found
    cases same
    cases found
  | cons candidate rest inductionHypothesis =>
    refine ⟨trivial, fun answer => ?_⟩
    cases answer with
    | ok _ =>
      intro chosen same temporary found
      cases same
      cases found
      exact List.mem_cons_self
    | error error =>
      show Program.Ensures Moves _
        (if error.kind = .alreadyExists then createFirst mode rest else throw error : Task IoError _).run
      split
      · refine inductionHypothesis.weaken fun outcome chosen value same temporary found => ?_
        exact List.mem_cons_of_mem _ (chosen value same temporary found)
      · intro chosen same
        cases same

/-- Preparing the directory moves nothing. -/
theorem moving_ensureDirectory (mode : Nat) (wrongKind : String) :
    Moving (ensureDirectory mode wrongKind).run := by
  refine Moving.routine (Moving.observe (moving_call trivial)) fun found =>
    Moving.routine ?_ fun _ => moving_call trivial
  cases found with
  | ok kind =>
    simp only [requireDirectory]
    split <;> trivial
  | error error =>
    simp only [requireDirectory]
    split
    · exact moving_call trivial
    · trivial

/-- Publishing moves its temporary file only. -/
theorem moving_publish {temporary target : Name} (hidden : isRecordName temporary = false) (bytes : Bytes) :
    Moving (publish temporary target bytes).run := by
  have commits : Moving (commit temporary target bytes).run :=
    Moving.routine (moving_call trivial) fun _ => Moving.routine (moving_call trivial) fun _ =>
      Moving.routine (moving_call hidden) fun _ => Moving.routine (moving_call trivial) fun _ =>
        moving_call trivial
  refine Moving.routine (Moving.observe commits) fun outcome => ?_
  cases outcome with
  | ok _ => trivial
  | error error => exact Moving.routine (Moving.observe (moving_call trivial)) fun _ => trivial

/-- A save moves its temporary file only. -/
theorem moving_save (pid : UInt32) (key : StoredKey) : Moving (KeyStore.save pid key).run := by
  refine Moving.routine (moving_lift _) fun _ => Moving.routine (moving_lift _) fun bytes =>
    Moving.routine (Moving.reporting _ (moving_ensureDirectory _ _)) fun _ => ?_
  have opening : (reporting StoreError.io (createFirst 0o600 (temporaryNames pid key.summary.id))).run.Ensures
      Moves (fun outcome => ∀ chosen, outcome = .ok chosen →
        ∀ temporary, chosen = some temporary → temporary ∈ temporaryNames pid key.summary.id) := by
    refine Program.Ensures.bind (β := Except StoreError (Option Name)) (ensures_createFirst 0o600 _) ?_
    rintro (_ | chosen) expected other same
    · cases same
    · cases same
      exact expected _ rfl
  refine Program.Ensures.bind opening fun outcome expected => ?_
  cases outcome with
  | error error => trivial
  | ok chosen =>
    cases chosen with
    | none => trivial
    | some temporary =>
      obtain ⟨attempt, _, rfl⟩ := List.mem_map.mp (expected _ rfl _ rfl)
      apply Moving.reporting
      apply moving_publish
      rw [Bool.eq_false_iff]
      intro named
      exact temporaryName_hidden pid key.summary.id attempt _ (.inl named) rfl

/-- A deletion moves nothing. -/
theorem moving_delete (id : KeyId) : Moving (KeyStore.delete id).run := by
  unfold KeyStore.delete
  split
  · trivial
  · refine Moving.routine (Moving.reporting _ (moving_call trivial)) fun metadata => ?_
    split
    · trivial
    · refine Moving.routine (Moving.reporting _ (moving_call trivial)) fun _ => Moving.reporting _ ?_
      exact Moving.routine (moving_call trivial) fun _ => moving_call trivial

/-- A management call moves only temporary files. -/
theorem moving_change (change : Change) : Moving change.routine := by
  cases change with
  | save pid key => exact moving_save pid key
  | delete id => exact moving_delete id

/-- A management call passes only through stores that differ in what it touches. -/
theorem stored_along (change : Change) {records : Records} {place : Place} (stored : Stored records place) :
    ∀ visited ∈ change.routine.trail (perform fun names => names) place,
      Stored records visited ∨ Stored (Function.update records change.touched change.value) visited := by
  intro visited passed
  cases change with
  | save pid key =>
    cases valid : validateRecord key with
    | error error =>
      have refused : (Change.save pid key).routine = .done (.error error) := by
        rw [Change.routine, KeyStore.save, valid]
        rfl
      rw [refused] at passed
      rw [List.mem_singleton.mp passed]
      exact .inl stored
    | ok _ =>
      have unfailing : visited ∈ stops (fun names => names) (fun _ => none) (KeyStore.save pid key) place := passed
      rcases (meets_save pid key place place rfl).1 visited unfailing with unpublished | published
      · exact .inl (stored.unpublished unpublished)
      · exact .inr (stored.published valid published)
  | delete id =>
    have unfailing : visited ∈ stops (fun names => names) (fun _ => none) (KeyStore.delete id) place := passed
    rcases (meets_delete id place place rfl).1 visited unfailing with kept | removed
    · exact .inl (stored.kept kept)
    · exact .inr (stored.removed removed)

/-! ## Invariants -/

/-- In a store a record is there exactly when it is stored. -/
theorem has_iff {records : Records} {place : Place} (stored : Stored records place) (key : StoredKey) :
    Has place key ↔ records key.summary.id = some key := by
  obtain ⟨view, formed, stands⟩ := stored
  rw [Has, formed.execute_load _ stands]
  cases records key.summary.id with
  | none => simp
  | some other => simp

/-- An entry under a record name of a store holds a stored record. -/
theorem stored_of_present {records : Records} {place : Place} (stored : Stored records place) {name : Name}
    (named : isRecordName name) (present : Present place name) :
    ∃ key mode, name = pathFor key.summary.id ∧ records key.summary.id = some key ∧
      place.lookup name = .ok ⟨.regular, mode, layout (rawOf key)⟩ ∧
      decode (layout (rawOf key)) = .ok key := by
  obtain ⟨view, formed, stands⟩ := stored
  obtain ⟨file, found⟩ := present
  rw [lookup_of_stands stands] at found
  have shown : (view name).isSome := by
    cases held : view name with
    | none => simp [held] at found
    | some file => rfl
  obtain ⟨id, rfl⟩ := formed.named name named shown
  cases holds : records id with
  | none => simp [formed.unused id holds] at shown
  | some key =>
    obtain ⟨rfl, valid⟩ := formed.keyed id key holds
    obtain ⟨mode, filed⟩ := formed.stored _ key holds
    refine ⟨key, mode, rfl, holds, ?_, (decode_layout _ _).mpr ⟨valid, rfl⟩⟩
    rw [lookup_of_stands stands, filed, Option.elim_some]

/-- The directory is a store, and so is every place that the call in progress passes
through; they differ only in what that call touches. -/
def Managed (state : State) : Prop :=
  match state.change with
  | none => ∃ records, Stored records state.place
  | some (change, routine) => Moving routine ∧ change.touched ∈ state.touched ∧
      ∃ records, ∀ visited ∈ routine.trail (perform fun names => names) state.place,
        Stored records visited ∨ Stored (Function.update records change.touched change.value) visited

/-- A managed place has stored records. -/
theorem Managed.stored {state : State} (managed : Managed state) : ∃ records, Stored records state.place := by
  unfold Managed at managed
  split at managed
  · exact managed
  · obtain ⟨_, _, records, passes⟩ := managed
    rcases passes _ (Program.start_mem_trail _ _ _) with stored | stored
    · exact ⟨_, stored⟩
    · exact ⟨_, stored⟩

/-- What has been read so far, and what is left. -/
structure Collected (state : State) (keys : List StoredKey) : Prop where
  distinct : (keys.map (fun key => pathFor key.summary.id) ++ state.awaited).Nodup
  present : ∀ name ∈ state.awaited, isRecordName name ∧ Present state.place name
  current : ∀ key ∈ keys, ∃ visited ∈ state.seen, Has visited key
  complete : ∀ key, (∀ visited ∈ state.seen, Has visited key) →
    pathFor key.summary.id ∈ keys.map (fun key => pathFor key.summary.id) ++ state.awaited

/-- Where the listing stands. -/
inductive Progress (state : State) : Listing → Prop where
  | called (nothing : state.awaited = []) : Progress state KeyStore.list.run
  | testing (keys : List StoredKey) (collected : Collected state keys) :
      Progress state (remaining state.awaited keys).run
  | fetching (name : Name) (names : List Name) (keys : List StoredKey) (next : state.awaited = name :: names)
      (collected : Collected state keys) : Progress state (fetching name names keys).run

/-- Untouched records are the same at every place since the call. -/
def Undisturbed (state : State) : Prop :=
  ∀ visited ∈ state.seen, ∀ key : StoredKey, key.summary.id ∉ state.touched →
    (Has visited key ↔ Has state.place key)

/-- What holds in every state of a run. -/
structure Invariant (state : State) : Prop where
  managed : Managed state
  undisturbed : Undisturbed state
  progress : ∀ listing, state.listing = some listing → Progress state listing
  called : state.listing ≠ none → state.place ∈ state.seen

/-- Later places and the same names leave the collection as it is. -/
theorem Collected.later {state next : State} {keys : List StoredKey} (collected : Collected state keys)
    (same : next.awaited = state.awaited) (grown : ∀ visited ∈ state.seen, visited ∈ next.seen)
    (present : ∀ name ∈ state.awaited, isRecordName name → Present state.place name → Present next.place name) :
    Collected next keys where
  distinct := same ▸ collected.distinct
  present name member := by
    rw [same] at member
    obtain ⟨named, before⟩ := collected.present name member
    exact ⟨named, present name member named before⟩
  current key member := by
    obtain ⟨visited, passed, has⟩ := collected.current key member
    exact ⟨visited, grown visited passed, has⟩
  complete key has := by
    rw [same]
    exact collected.complete key fun visited passed => has visited (grown visited passed)

/-- A listing stays in progress while nothing it still reads goes away. -/
theorem Progress.later {state next : State} {listing : Listing} (progress : Progress state listing)
    (same : next.awaited = state.awaited) (grown : ∀ visited ∈ state.seen, visited ∈ next.seen)
    (present : ∀ name ∈ state.awaited, isRecordName name → Present state.place name → Present next.place name) :
    Progress next listing := by
  cases progress with
  | called nothing => exact .called (same.trans nothing)
  | testing keys collected =>
    rw [← same]
    exact .testing keys (collected.later same grown present)
  | fetching name names keys following collected =>
    exact .fetching name names keys (same.trans following) (collected.later same grown present)

/-- The state after a step of the listing. -/
def State.listed (state : State) (operation : Operation) (answer : Answer operation) (listing : Listing) : State :=
  { state with
    listing := some listing
    awaited := awaitedAfter operation answer state.awaited
    seen := state.seen ++ [state.place] }

/-- Enumerating a store finds the name of every record. -/
theorem progress_enumerated {state : State} (stored : ∃ records, Stored records state.place)
    (nothing : state.awaited = []) (enumeration : Enumeration) :
    Progress (state.listed .readDirectory (state.place.names enumeration.order)
        (listEntries (state.place.names enumeration.order)).run)
      (listEntries (state.place.names enumeration.order)).run := by
  obtain ⟨records, stored⟩ := stored
  obtain ⟨view, formed, stands⟩ := id stored
  rcases stands with ⟨mode, files, same, shown⟩ | ⟨missing, rfl⟩
  · obtain rfl : files.lookup = view := funext shown
    rw [same, Place.names, listEntries_run]
    refine .testing [] ⟨?_, ?_, fun _ impossible => absurd impossible List.not_mem_nil, ?_⟩
    · exact ((enumeration.perm _).nodup_iff.mpr files.keys_nodup).filter _
    · intro name member
      obtain ⟨listed, named⟩ := List.mem_filter.mp member
      have inside : name ∈ files := (enumeration.perm _).mem_iff.mp listed
      obtain ⟨file, held⟩ := Option.isSome_iff_exists.mp (AList.lookup_isSome.mpr inside)
      refine ⟨named, file, ?_⟩
      show state.place.lookup name = .ok file
      rw [same, Place.lookup, held, Option.elim_some]
    · intro key has
      have here : Has state.place key := has _ (List.mem_append_right _ (List.mem_singleton.mpr rfl))
      rw [has_iff stored] at here
      have valid := (formed.keyed _ _ here).2
      obtain ⟨fileMode, filed⟩ := formed.stored _ _ here
      refine List.mem_filter.mpr ⟨(enumeration.perm _).mem_iff.mpr ?_, ?_⟩
      · exact AList.lookup_isSome.mp (by rw [filed]; rfl)
      · exact decide_eq_true (extension_pathFor key.summary.id (valid_id key valid).1)
  · have empty : (listEntries (.error .noSuchFile)).run = (remaining [] []).run := by
      show Program.done (Except.ok []) = Program.done (Except.ok ([].mergeSort idLe))
      rw [List.mergeSort_nil]
    rw [missing, Place.names, empty]
    have idle : (state.listed .readDirectory (.error .noSuchFile) (remaining [] []).run).awaited = [] := nothing
    have collected : Collected (state.listed .readDirectory (.error .noSuchFile) (remaining [] []).run) [] := by
      refine ⟨?_, ?_, fun _ impossible => absurd impossible List.not_mem_nil, ?_⟩
      · rw [idle]
        exact List.nodup_nil
      · rw [idle]
        exact fun _ impossible => absurd impossible List.not_mem_nil
      · intro key has
        have here : Has state.place key := has _ (List.mem_append_right _ (List.mem_singleton.mpr rfl))
        rw [missing] at here
        cases here
    have progress := Progress.testing [] collected
    rwa [idle] at progress

/-- The next entry is still there and regular, so the listing goes on to read it. -/
theorem progress_tested {state : State} (stored : ∃ records, Stored records state.place) {name : Name}
    {names : List Name} {keys : List StoredKey} (following : state.awaited = name :: names)
    (collected : Collected state keys) :
    Progress (state.listed (.entryKind name) ((state.place.lookup name).map File.kind)
        (tested name names keys ((state.place.lookup name).map File.kind)).run)
      (tested name names keys ((state.place.lookup name).map File.kind)).run := by
  obtain ⟨records, stored⟩ := stored
  obtain ⟨named, present⟩ := collected.present name (following ▸ List.mem_cons_self)
  obtain ⟨key, mode, _, _, found, _⟩ := stored_of_present stored named present
  rw [found]
  refine .fetching name names keys following (collected.later rfl ?_ ?_)
  · exact fun visited passed => List.mem_append_left _ passed
  · exact fun _ _ _ before => before

/-- The entry reads as the record that is stored under its name now. -/
theorem progress_fetched {state : State} (stored : ∃ records, Stored records state.place) {name : Name}
    {names : List Name} {keys : List StoredKey} (following : state.awaited = name :: names)
    (collected : Collected state keys) :
    Progress (state.listed (.read name) ((state.place.lookup name).bind contentsOf)
        (fetched names keys ((state.place.lookup name).bind contentsOf)).run)
      (fetched names keys ((state.place.lookup name).bind contentsOf)).run := by
  obtain ⟨records, stored⟩ := stored
  obtain ⟨named, present⟩ := collected.present name (following ▸ List.mem_cons_self)
  obtain ⟨key, mode, rfl, holds, found, decodes⟩ := stored_of_present stored named present
  have readable : (state.place.lookup (pathFor key.summary.id)).bind contentsOf = .ok (layout (rawOf key)) := by
    rw [found]
    simp [Except.bind, contentsOf]
  have reads : fetched names keys (.ok (layout (rawOf key))) = remaining names (keys ++ [key]) := by
    simp only [fetched, decodes]
  rw [readable, reads]
  have left : (state.listed (.read (pathFor key.summary.id)) (.ok (layout (rawOf key)))
      (remaining names (keys ++ [key])).run).awaited = names := by
    show state.awaited.erase (pathFor key.summary.id) = names
    rw [following, List.erase_cons_head]
  have moved : (keys ++ [key]).map (fun key => pathFor key.summary.id) ++ names =
      keys.map (fun key => pathFor key.summary.id) ++ state.awaited := by
    rw [following, List.map_append, List.append_assoc]
    rfl
  have gathered : Collected (state.listed (.read (pathFor key.summary.id)) (.ok (layout (rawOf key)))
      (remaining names (keys ++ [key])).run) (keys ++ [key]) := by
    refine ⟨?_, ?_, ?_, ?_⟩
    · rw [left, moved]
      exact collected.distinct
    · rw [left]
      intro other member
      exact collected.present other (following ▸ List.mem_cons_of_mem _ member)
    · intro other member
      rcases List.mem_append.mp member with earlier | last
      · obtain ⟨visited, passed, has⟩ := collected.current other earlier
        exact ⟨visited, List.mem_append_left _ passed, has⟩
      · rw [List.mem_singleton.mp last]
        exact ⟨state.place, List.mem_append_right _ (List.mem_singleton.mpr rfl), (has_iff stored key).mpr holds⟩
    · intro other has
      rw [left, moved]
      exact collected.complete other fun visited passed => has visited (List.mem_append_left _ passed)
  have progress := Progress.testing (keys ++ [key]) gathered
  rwa [left] at progress

/-- One step of a listing leaves the directory as it is and keeps the collection. -/
theorem progress_list {state : State} (stored : ∃ records, Stored records state.place) {operation : Operation}
    {next : Answer operation → Listing} (progress : Progress state (.ask operation next))
    (enumeration : Enumeration) :
    (perform enumeration.order operation state.place).2 = state.place ∧
      Progress (state.listed operation (perform enumeration.order operation state.place).1
          (next (perform enumeration.order operation state.place).1))
        (next (perform enumeration.order operation state.place).1) := by
  generalize asked : Program.ask operation next = listing at progress
  cases progress with
  | called nothing =>
    rw [list_run] at asked
    cases asked
    exact ⟨rfl, progress_enumerated stored nothing enumeration⟩
  | testing keys collected =>
    cases following : state.awaited with
    | nil =>
      rw [following] at asked
      cases asked
    | cons name names =>
      have named := (collected.present name (following ▸ List.mem_cons_self)).1
      rw [following, remaining_run named] at asked
      cases asked
      exact ⟨rfl, progress_tested stored following collected⟩
  | fetching name names keys following collected =>
    rw [fetching_run] at asked
    cases asked
    exact ⟨rfl, progress_fetched stored following collected⟩

/-- The step of a management call leaves untouched records alone. -/
theorem has_manage {state : State} {change : Change} {operation : Operation}
    {next : Answer operation → Program Operation Answer (Except StoreError Unit)} (managed : Managed state)
    (changing : state.change = some (change, .ask operation next)) (key : StoredKey)
    (untouched : key.summary.id ∉ state.touched) :
    Has (perform (fun names => names) operation state.place).2 key ↔ Has state.place key := by
  simp only [Managed, changing] at managed
  obtain ⟨_, touches, records, passes⟩ := managed
  have elsewhere : key.summary.id ≠ change.touched := fun same => untouched (same ▸ touches)
  have same {visited : Place} (passed : Stored records visited ∨
      Stored (Function.update records change.touched change.value) visited) :
      Has visited key ↔ records key.summary.id = some key := by
    rcases passed with stored | stored
    · exact has_iff stored key
    · rw [has_iff stored, Function.update_of_ne elsewhere]
  rw [same (passes _ (List.mem_cons_of_mem _ (Program.start_mem_trail _ _ _))),
    same (passes _ (Program.start_mem_trail _ _ _))]

/-- A new call has seen the place where it starts, and nothing was touched but what
is being changed. -/
theorem invariant_call {state next : State} (holds : Invariant state)
    (taken : step state .call = some next) : Invariant next := by
  have started : next = { state with
      listing := some KeyStore.list.run
      awaited := []
      seen := [state.place]
      touched := state.change.toList.map fun current => current.1.touched } := by
    simp only [step] at taken
    split at taken
    · cases taken
    · exact (Option.some.inj taken).symm
  subst started
  refine ⟨?_, ?_, ?_, fun _ => List.mem_singleton.mpr rfl⟩
  · have managed := holds.managed
    unfold Managed at managed ⊢
    cases changing : state.change with
    | none =>
      rw [changing] at managed
      exact managed
    | some current =>
      rw [changing] at managed
      exact ⟨managed.1, List.mem_singleton.mpr rfl, managed.2.2⟩
  · intro visited passed key _
    rw [List.mem_singleton.mp passed]
  · rintro listing ⟨⟩
    exact .called rfl

/-- A step of the listing adds nothing but the same place once more. -/
theorem invariant_list {state next : State} {enumeration : Enumeration} (holds : Invariant state)
    (taken : step state (.list enumeration) = some next) : Invariant next := by
  simp only [step] at taken
  split at taken
  · rename_i operation continuation listing
    obtain ⟨unchanged, later⟩ := progress_list holds.managed.stored (holds.progress _ listing) enumeration
    rw [unchanged] at taken
    cases taken
    refine ⟨holds.managed, ?_, ?_, fun _ => List.mem_append_right _ (List.mem_singleton.mpr rfl)⟩
    · intro visited passed key untouched
      rcases List.mem_append.mp passed with earlier | last
      · exact holds.undisturbed visited earlier key untouched
      · rw [List.mem_singleton.mp last]
    · rintro listing ⟨⟩
      exact later
  · cases taken

/-- A management call begins in a store. -/
theorem invariant_begin {state next : State} {change : Change} (holds : Invariant state)
    (taken : step state (.begin change) = some next) : Invariant next := by
  simp only [step] at taken
  split at taken
  · rename_i idle
    cases taken
    obtain ⟨records, stored⟩ := holds.managed.stored
    refine ⟨⟨moving_change change, List.mem_cons_self, records, stored_along change stored⟩, ?_, ?_, holds.called⟩
    · intro visited passed key untouched
      exact holds.undisturbed visited passed key fun touched => untouched (List.mem_cons_of_mem _ touched)
    · intro listing same
      exact (holds.progress listing same).later rfl (fun _ passed => passed) fun _ _ _ present => present
  · cases taken

/-- A step of a management call that spares the awaited entries leaves them there. -/
theorem invariant_manage {state next : State} (holds : Invariant state) (spares : Spares state .manage)
    (taken : step state .manage = some next) : Invariant next := by
  simp only [step] at taken
  split at taken
  · rename_i change operation continuation changing
    cases taken
    have managed := holds.managed
    simp only [Managed, changing] at managed
    obtain ⟨moving, touches, records, passes⟩ := managed
    have untouchedSame := fun key => has_manage holds.managed changing key
    refine ⟨⟨moving.2 _, touches, records, fun visited passed => passes visited (List.mem_cons_of_mem _ passed)⟩,
      ?_, ?_, fun _ => List.mem_append_right _ (List.mem_singleton.mpr rfl)⟩
    · intro visited passed key untouched
      rcases List.mem_append.mp passed with earlier | last
      · exact (holds.undisturbed visited earlier key untouched).trans (untouchedSame key untouched).symm
      · rw [List.mem_singleton.mp last]
    · intro listing same
      refine (holds.progress listing same).later rfl (fun _ passed => List.mem_append_left _ passed) ?_
      intro name member named present
      apply present_perform present
      · rintro rfl
        exact spares name (by rw [State.unlinks, changing]; rfl) member
      · rintro target rfl
        have temporary : isRecordName name = false := moving.1
        rw [named] at temporary
        cases temporary
  · cases taken

/-- A management call that has returned leaves a store. -/
theorem invariant_finish {state next : State} (holds : Invariant state)
    (taken : step state .finish = some next) : Invariant next := by
  simp only [step] at taken
  split at taken
  · cases taken
    refine ⟨holds.managed.stored, holds.undisturbed, ?_, holds.called⟩
    intro listing same
    exact (holds.progress listing same).later rfl (fun _ passed => passed) fun _ _ _ present => present
  · cases taken

/-- Every step that spares the awaited entries keeps the invariant. -/
theorem invariant_step (state : State) (action : Action) (next : State) (holds : Invariant state)
    (spares : Spares state action) (taken : step state action = some next) : Invariant next := by
  cases action with
  | call => exact invariant_call holds taken
  | list enumeration => exact invariant_list holds taken
  | begin change => exact invariant_begin holds taken
  | manage => exact invariant_manage holds spares taken
  | finish => exact invariant_finish holds taken

/-- Nothing is awaited and nothing has been seen before the first call. -/
theorem invariant_initial {records : Records} {place : Place} (stored : Stored records place) :
    Invariant (.initial place) :=
  ⟨⟨records, stored⟩, nofun, nofun, fun impossible => absurd rfl impossible⟩

/-- Listing is safe against concurrent management. Let the agent list a well-formed
store while a command-line process saves and deletes records in it, in any
interleaving of their operations in which no entry is unlinked between its
enumeration and its reading. Then a listing that has returned has succeeded; no
identifier occurs twice in it; it contains every record that was there when it was
called and whose identifier was not touched since; and every record in it was stored
at some moment of the call. -/
theorem listing_survives_management {records : Records} {place : Place} (stored : Stored records place)
    {actions : List Action} {state : State}
    (spared : Transition.Along step Spares (.initial place) actions)
    (reached : Transition.run step (.initial place) actions = some state)
    {result : Except StoreError (List StoredKey)} (returned : state.listing = some (.done result)) :
    ∃ keys, result = .ok keys ∧ (keys.map fun key => key.summary.id).Nodup ∧
      (∀ key : StoredKey, key.summary.id ∉ state.touched →
        (∃ visited ∈ state.seen, Has visited key) → key ∈ keys) ∧
      ∀ key ∈ keys, ∃ visited ∈ state.seen, Has visited key := by
  have holds := Transition.invariant_along invariant_step (invariant_initial stored) spared reached
  have progress := holds.progress _ returned
  generalize ended : Program.done result = listing at progress
  cases progress with
  | called nothing => cases ended
  | fetching name names keys following collected => cases ended
  | testing keys collected =>
    cases following : state.awaited with
    | cons name names =>
      have named := (collected.present name (following ▸ List.mem_cons_self)).1
      rw [following, remaining_run named] at ended
      cases ended
    | nil =>
      rw [following] at ended
      cases ended
      have members (key : StoredKey) : key ∈ keys.mergeSort idLe ↔ key ∈ keys :=
        (List.mergeSort_perm keys idLe).mem_iff
      refine ⟨_, rfl, ?_, ?_, ?_⟩
      · have distinct := collected.distinct
        rw [following, List.append_nil] at distinct
        have composed : (keys.map fun key => pathFor key.summary.id) =
            (keys.map fun key => key.summary.id).map pathFor := by rw [List.map_map]; rfl
        rw [composed] at distinct
        exact ((List.mergeSort_perm keys idLe).map _).nodup_iff.mpr (distinct.of_map _)
      · rintro key untouched ⟨visited, passed, has⟩
        have throughout (other : Place) (later : other ∈ state.seen) : Has other key :=
          (holds.undisturbed other later key untouched).mpr
            ((holds.undisturbed visited passed key untouched).mp has)
        have listed := collected.complete key throughout
        rw [following, List.append_nil] at listed
        obtain ⟨other, member, sameName⟩ := List.mem_map.mp listed
        obtain ⟨moment, during, there⟩ := collected.current other member
        have here := throughout moment during
        rw [Has, pathFor_injective sameName] at there
        rw [Has, there] at here
        rw [members, ← Except.ok.inj here]
        exact member
      · intro key member
        exact collected.current key ((members key).mp member)

namespace Sample

def other : StoredKey := ⟨⟨⟨"l"⟩, "home", .ecdsaNistP384, .noPin, [8]⟩, ⟨[1], [2], [3], .noPin⟩⟩

/-- A store with two records. -/
def place : Place :=
  .directory 0o700 (((∅ : Files).insert (pathFor ⟨"l"⟩) (recordFile other)).insert
    (pathFor ⟨"k"⟩) (recordFile Durability.Sample.key))

def records : Records :=
  Function.update (Function.update (fun _ => none) ⟨"l"⟩ (some other)) ⟨"k"⟩ (some Durability.Sample.key)

def inOrder : Enumeration := ⟨id, fun _ => List.Perm.refl _⟩

/-- The records are stored in that place. -/
theorem stored : Stored records place := by
  have empty : WellFormed (fun _ => none) (fun _ => none) :=
    ⟨nofun, nofun, fun _ _ => rfl, fun _ _ impossible => by cases impossible⟩
  have first := empty.update ⟨"l"⟩ (some other) (by rintro _ ⟨⟩; exact ⟨rfl, rfl⟩)
  have both := first.update ⟨"k"⟩ (some Durability.Sample.key) (by rintro _ ⟨⟩; exact ⟨rfl, rfl⟩)
  obtain ⟨_, files, same, single⟩ := shows_insert 0o700 (pathFor ⟨"l"⟩) (recordFile other)
    (fun _ => rfl : ∀ name, (∅ : Files).lookup name = none)
  obtain ⟨_, rfl⟩ := Place.directory.inj same
  exact ⟨_, both, .inl (shows_insert 0o700 (pathFor ⟨"k"⟩) (recordFile Durability.Sample.key) single)⟩

/-- The record that is listed first is deleted after it was enumerated. -/
def deletion : List Action :=
  [.call, .list inOrder, .begin (.delete ⟨"k"⟩), .manage, .manage, .manage, .manage, .finish, .list inOrder]

/-- The first record is deleted after it was read. -/
def lateDeletion : List Action :=
  [.call, .list inOrder, .list inOrder, .list inOrder, .begin (.delete ⟨"k"⟩), .manage, .manage, .manage, .manage,
    .finish, .list inOrder, .list inOrder]

end Sample
/-- A deletion after the reading leaves the listing complete. -/
theorem late_deletion_is_harmless :
    Transition.Along step Spares (.initial Sample.place) Sample.lateDeletion ∧
      ∃ state keys, Transition.run step (.initial Sample.place) Sample.lateDeletion = some state ∧
        state.listing = some (.done (.ok keys)) ∧ Sample.other ∈ keys := by
  have spared : Transition.Along step Spares (.initial Sample.place) Sample.lateDeletion := by decide +kernel
  obtain ⟨state, reached⟩ : ∃ state, Transition.run step (.initial Sample.place) Sample.lateDeletion =
      some state := ⟨_, rfl⟩
  have computed : (Transition.run step (.initial Sample.place) Sample.lateDeletion).map
      (fun state => (state.listing, state.touched, state.seen.head?)) =
        some (some (.done (.ok ([Durability.Sample.key, Sample.other].mergeSort idLe))), [⟨"k"⟩],
          some Sample.place) := rfl
  rw [reached, Option.map_some, Option.some.injEq, Prod.mk.injEq, Prod.mk.injEq] at computed
  obtain ⟨returned, touched, first⟩ := computed
  obtain ⟨keys, same, _, complete, _⟩ := listing_survives_management Sample.stored spared reached returned
  refine ⟨spared, state, keys, reached, by rw [returned, same], complete Sample.other ?_ ?_⟩
  · rw [touched]
    decide +kernel
  · exact ⟨Sample.place, List.mem_of_mem_head? first, rfl⟩

/-- An entry that is deleted between its enumeration and its reading makes the
listing fail, although the other record was not touched. -/
theorem deletion_breaks_a_listing :
    Stored Sample.records Sample.place ∧
      (Transition.run step (.initial Sample.place) Sample.deletion).map (fun state => (state.listing, state.touched)) =
        some (some (.done (.error (.io .noSuchFile))), [⟨"k"⟩]) :=
  ⟨Sample.stored, rfl⟩

end Keyvisor.Sharing
