import Keyvisor.Management
import Keyvisor.Runtime

/-!
# Deleting a key while requests are served

Any number of agent requests, each the program of `handle`, share the key directory
with the command-line processes that save and delete records. A request lists the
directory one operation at a time; every other operation, the wait for a PIN
included, is answered as the environment likes and as late as it likes.

A request chooses its record from the listing and signs with that copy, so a record
that is deleted in between is still used. A deletion takes effect when no request
has read or chosen the record and not yet signed with it.
-/

namespace Keyvisor.Revocation

open Foundation Foundation.Directory RecordCodec KeyStore Sharing

/-- An agent request: the rest of `handle`, the phase it has come to, and the listing
that it is taking with the records read so far. -/
structure Request where
  packet : Bytes
  program : Runtime.Action (Except String Bytes)
  phase : Runtime.Phase
  listing : Option Listing
  read : List StoredKey

/-- The store with the management calls, and the requests of the agent. -/
structure State where
  store : Management.State
  requests : List Request

/-- Nobody is changing the directory and no request was received. -/
def State.initial (place : Place) : State := ⟨⟨place, [], []⟩, []⟩

/-- A request arrives, takes one step of its listing, which may fail, or takes any
other step; or a management call goes on. -/
inductive Action where
  | receive (packet : Bytes)
  | list (request : Nat) (enumeration : Enumeration) (faults : Faults)
  | perform (request : Nat) (environment : (operation : Runtime.Operation) → Runtime.Answer operation)
  | manage (action : Management.Action)

/-- The records that a listing has read after one more operation. -/
def readAfter : (operation : Directory.Operation) → Directory.Answer operation → List StoredKey → List StoredKey
  | .read _, .ok bytes, found =>
    match decode bytes with
    | .ok key => found ++ [key]
    | .error _ => found
  | _, _, found => found

/-- The request after an operation of its own. -/
def Request.answered (request : Request) (operation : Runtime.Operation)
    (next : Runtime.Answer operation → Runtime.Action (Except String Bytes)) (answer : Runtime.Answer operation) :
    Request where
  packet := request.packet
  program := next answer
  phase := (Runtime.advance request.packet request.phase ⟨operation, answer⟩).getD request.phase
  listing := none
  read := []

/-- One step of the listing of a request: it starts, asks the directory, or returns. -/
def Request.list (request : Request) (enumeration : Enumeration) (faults : Faults) (place : Place) :
    Option Request :=
  match request.program with
  | .ask .listKeys next =>
    match request.listing with
    | none => some { request with listing := some KeyStore.list.run }
    | some (.ask operation rest) =>
      let answer := (attempt enumeration.order faults operation place).1
      some { request with listing := some (rest answer), read := readAfter operation answer request.read }
    | some (.done result) => some (request.answered .listKeys next result)
  | _ => none

/-- Any other operation of a request. -/
def Request.perform (request : Request)
    (environment : (operation : Runtime.Operation) → Runtime.Answer operation) : Option Request :=
  match request.program with
  | .done _ => none
  | .ask .listKeys _ => none
  | .ask operation next => some (request.answered operation next (environment operation))

section

variable (settings : Runtime.Settings)

/-- One step of a request or of a management call, or a new request. -/
def step (state : State) : Action → Option State
  | .receive packet => some { state with
      requests := state.requests ++ [⟨packet, (Runtime.handle settings packet).run, .fresh, none, []⟩] }
  | .list index enumeration faults => do
    let request ← state.requests[index]?
    let next ← request.list enumeration faults state.store.place
    return { state with requests := state.requests.set index next }
  | .perform index environment => do
    let request ← state.requests[index]?
    let next ← request.perform environment
    return { state with requests := state.requests.set index next }
  | .manage action => do
    let next ← Management.step state.store action
    return { state with store := next }

end

/-- The record that a request has chosen and not yet signed with. -/
def carried : Runtime.Phase → List StoredKey
  | .chosen key => [key]
  | .pinned key _ => [key]
  | _ => []

/-- The records that an unfinished request may still sign with: the one it has
chosen, and while it lists those it has read and would choose. -/
def Request.held (request : Request) : List StoredKey :=
  if request.program.finished then []
  else carried request.phase ++
    request.read.filter fun key => Runtime.selected request.packet [key] = some key

/-- The step does not unlink a record that an unfinished request may still sign with. -/
def Spares (state : State) : Action → Prop
  | .manage action => ∀ name ∈ Management.unlinks state.store action, ∀ request ∈ state.requests,
      ∀ key ∈ request.held, name ≠ pathFor key.summary.id
  | _ => True

instance (state : State) (action : Action) : Decidable (Spares state action) :=
  match action with
  | .manage action => inferInstanceAs (Decidable (∀ name ∈ Management.unlinks state.store action,
      ∀ request ∈ state.requests, ∀ key ∈ request.held, name ≠ pathFor key.summary.id))
  | .receive _ => .isTrue trivial
  | .list _ _ _ => .isTrue trivial
  | .perform _ _ => .isTrue trivial

/-! ## The listing of a request -/

/-- Where a listing stands that has read these records. -/
inductive Reads : List StoredKey → Listing → Prop where
  | called : Reads [] KeyStore.list.run
  | testing (names : List Name) (keys : List StoredKey) (named : ∀ name ∈ names, isRecordName name) :
      Reads keys (remaining names keys).run
  | fetching (name : Name) (names : List Name) (keys : List StoredKey) (next : isRecordName name)
      (named : ∀ name ∈ names, isRecordName name) : Reads keys (fetching name names keys).run
  | failed (keys : List StoredKey) (error : StoreError) : Reads keys (.done (.error error))

/-- A listing that returns records returns those it has read. -/
theorem Reads.returned {keys listed : List StoredKey} (reads : Reads keys (.done (.ok listed))) :
    ∀ key ∈ listed, key ∈ keys := by
  generalize ended : Program.done (Except.ok listed) = listing at reads
  cases reads with
  | called => cases ended
  | fetching name names keys next named => cases ended
  | failed keys error => cases ended
  | testing names keys named =>
    cases names with
    | nil =>
      cases ended
      intro key member
      exact (List.mergeSort_perm keys idLe).mem_iff.mp member
    | cons name names =>
      rw [remaining_run (named name List.mem_cons_self)] at ended
      cases ended

/-- An enumeration that fails ends the listing or finds no store. -/
theorem reads_unlisted (error : IoError) : Reads [] (listEntries (.error error)).run := by
  simp only [listEntries]
  split
  · have nothing : (pure [] : Task StoreError (List StoredKey)).run = (remaining [] []).run := by
      show Program.done (Except.ok []) = Program.done (Except.ok ([].mergeSort idLe))
      rw [List.mergeSort_nil]
    rw [nothing]
    exact .testing [] [] fun _ impossible => absurd impossible List.not_mem_nil
  · exact .failed [] _

/-- One more operation of a listing, whatever it is answered. -/
theorem reads_answer {keys : List StoredKey} {operation : Directory.Operation}
    {next : Directory.Answer operation → Listing} (reads : Reads keys (.ask operation next))
    (answer : Directory.Answer operation) : Reads (readAfter operation answer keys) (next answer) := by
  generalize asked : Program.ask operation next = listing at reads
  cases reads with
  | called =>
    rw [list_run] at asked
    cases asked
    cases (answer : Except IoError (List Name)) with
    | error error => exact reads_unlisted error
    | ok names =>
      show Reads [] (listEntries (.ok names)).run
      rw [listEntries_run]
      exact .testing _ [] fun name member => (List.mem_filter.mp member).2
  | failed keys error => cases asked
  | testing names keys named =>
    cases names with
    | nil => cases asked
    | cons name names =>
      rw [remaining_run (named name List.mem_cons_self)] at asked
      cases asked
      cases (answer : Except IoError FileKind) with
      | error error => exact .failed _ _
      | ok kind =>
        simp only [tested]
        split
        · exact .failed _ _
        · exact .fetching name names keys (named name List.mem_cons_self) fun other member =>
            named other (List.mem_cons_of_mem _ member)
  | fetching name names keys recorded named =>
    rw [fetching_run] at asked
    cases asked
    cases (answer : Except IoError Bytes) with
    | error error => exact .failed _ _
    | ok bytes =>
      simp only [readAfter, fetched]
      cases decode bytes with
      | error error => exact .failed _ _
      | ok key => exact .testing names (keys ++ [key]) named

/-- A listing reads only record names. -/
theorem Reads.named {keys : List StoredKey} {name : Name}
    {next : Directory.Answer (.read name) → Listing} (reads : Reads keys (.ask (.read name) next)) :
    isRecordName name := by
  generalize asked : Program.ask (Directory.Operation.read name) next = listing at reads
  cases reads with
  | called =>
    rw [list_run] at asked
    cases asked
  | failed keys error => cases asked
  | testing names keys named =>
    cases names with
    | nil => cases asked
    | cons name names =>
      rw [remaining_run (named name List.mem_cons_self)] at asked
      cases asked
  | fetching name names keys recorded named =>
    rw [fetching_run] at asked
    cases asked
    exact recorded

/-- The record that an operation reads stands under its own name there. -/
theorem present_of_read {keys : List StoredKey} {operation : Directory.Operation}
    {next : Directory.Answer operation → Listing} {place : Place} (reads : Reads keys (.ask operation next))
    (filed : Management.Filed place.entry) (enumeration : Enumeration) (faults : Faults) (key : StoredKey)
    (member : key ∈ readAfter operation (attempt enumeration.order faults operation place).1 keys) :
    key ∈ keys ∨ place.entry (pathFor key.summary.id) ≠ none := by
  cases operation with
  | read name =>
    generalize answered : (attempt enumeration.order faults (.read name) place).1 = answer at member
    cases (answer : Except IoError Bytes) with
    | error error => exact .inl member
    | ok bytes =>
      obtain ⟨file, found, rfl⟩ := entry_of_read answered
      obtain ⟨stored, decodes, rfl⟩ := filed name file reads.named found
      simp only [readAfter, decodes] at member
      rcases List.mem_append.mp member with earlier | last
      · exact .inl earlier
      · rw [List.mem_singleton.mp last, found]
        exact .inr nofun
  | _ => exact .inl member

/-! ## The requests -/

/-- What is known of a request that is being served. -/
structure Serving (request : Request) : Prop where
  complies : Program.Complies (Runtime.advance request.packet) request.phase request.program (fun _ _ => True)
  reading : ∀ listing, request.listing = some listing → Reads request.read listing
  idle : request.listing = none → request.read = []

/-- Only a listing chooses a record; every other operation passes the chosen one on. -/
theorem carried_advance {packet : Bytes} {phase next : Runtime.Phase} {operation : Runtime.Operation}
    {answer : Runtime.Answer operation} (advanced : Runtime.advance packet phase ⟨operation, answer⟩ = some next)
    (other : operation ≠ .listKeys) : ∀ key ∈ carried next, key ∈ carried phase := by
  intro key member
  cases operation with
  | listKeys => exact absurd rfl other
  | requestPin keyName =>
    cases phase with
    | chosen chosen =>
      cases (answer : Except String Bytes) with
      | ok pin =>
        simp only [Runtime.advance] at advanced
        split at advanced
        · cases advanced
          exact member
        · cases advanced
      | error message =>
        simp only [Runtime.advance] at advanced
        split at advanced
        · cases advanced
          cases member
        · cases advanced
    | _ => simp [Runtime.advance] at advanced
  | sign used digest authorization =>
    have signed : ∃ signed, next = .signed signed := by
      cases phase with
      | chosen chosen =>
        simp only [Runtime.advance] at advanced
        split at advanced
        · exact ⟨_, (Option.some.inj advanced).symm⟩
        · cases advanced
      | pinned chosen pin =>
        simp only [Runtime.advance] at advanced
        split at advanced
        · exact ⟨_, (Option.some.inj advanced).symm⟩
        · cases advanced
      | _ => simp [Runtime.advance] at advanced
    obtain ⟨_, rfl⟩ := signed
    cases member
  | _ =>
    cases advanced
    exact member

/-- The record that a listing selects is one of those listed, and is selected alone. -/
theorem selected_of_mem {packet : Bytes} {keys : List StoredKey} {key : StoredKey}
    (found : Runtime.selected packet keys = some key) :
    key ∈ keys ∧ Runtime.selected packet [key] = some key := by
  unfold Runtime.selected at found ⊢
  split at found
  · split at found
    · rename_i plain
      refine ⟨List.mem_of_find?_eq_some found, ?_⟩
      rw [if_pos plain, List.find?_cons_of_pos (List.find?_some found)]
    · cases found
  · cases found

section

variable {request : Request} {operation : Runtime.Operation}
  {next : Runtime.Answer operation → Runtime.Action (Except String Bytes)}

/-- A request that asks is not finished. -/
theorem held_of_asks (asks : request.program = .ask operation next) :
    request.held = carried request.phase ++
      request.read.filter fun key => Runtime.selected request.packet [key] = some key := by
  simp only [Request.held, asks, Program.finished, Bool.false_eq_true, ↓reduceIte]

/-- The monitor accepts the operation, and the request goes on from there. -/
theorem answered_eq (serving : Serving request) (asks : request.program = .ask operation next)
    (answer : Runtime.Answer operation) :
    ∃ reached, Runtime.advance request.packet request.phase ⟨operation, answer⟩ = some reached ∧
      request.answered operation next answer = ⟨request.packet, next answer, reached, none, []⟩ ∧
      Serving (request.answered operation next answer) := by
  have complies := serving.complies
  rw [asks] at complies
  obtain ⟨reached, advanced, continues⟩ := complies answer
  have same : request.answered operation next answer = ⟨request.packet, next answer, reached, none, []⟩ := by
    rw [Request.answered, advanced, Option.getD_some]
  refine ⟨reached, advanced, same, ?_⟩
  rw [same]
  exact ⟨continues, nofun, fun _ => rfl⟩

/-- A request between two listings holds at most the record it carries. -/
theorem held_answered (serving : Serving request) (asks : request.program = .ask operation next)
    (answer : Runtime.Answer operation) :
    ∃ reached, Runtime.advance request.packet request.phase ⟨operation, answer⟩ = some reached ∧
      ∀ key ∈ (request.answered operation next answer).held, key ∈ carried reached := by
  obtain ⟨reached, advanced, same, _⟩ := answered_eq serving asks answer
  refine ⟨reached, advanced, fun key member => ?_⟩
  rw [same, Request.held] at member
  split at member
  · cases member
  · rwa [List.filter_nil, List.append_nil] at member

/-- An operation other than the listing gives a request no new record. -/
theorem held_performed (serving : Serving request) (asks : request.program = .ask operation next)
    (answer : Runtime.Answer operation) (other : operation ≠ .listKeys) :
    ∀ key ∈ (request.answered operation next answer).held, key ∈ request.held := by
  obtain ⟨reached, advanced, carries⟩ := held_answered serving asks answer
  intro key member
  rw [held_of_asks asks]
  exact List.mem_append_left _ (carried_advance advanced other key (carries key member))

end

/-- The record that a finished listing chooses is among those it has read. -/
theorem held_chosen {request : Request}
    {next : Except StoreError (List StoredKey) → Runtime.Action (Except String Bytes)}
    {result : Except StoreError (List StoredKey)} (serving : Serving request)
    (asks : request.program = .ask .listKeys next) (listed : request.listing = some (.done result)) :
    ∀ key ∈ (request.answered .listKeys next result).held, key ∈ request.held := by
  obtain ⟨reached, advanced, carries⟩ := held_answered serving asks result
  intro key member
  have chosen := carries key member
  rw [held_of_asks asks]
  apply List.mem_append_right
  cases phase : request.phase with
  | fresh =>
    rw [phase] at advanced
    cases result with
    | error error =>
      cases advanced
      cases chosen
    | ok keys =>
      simp only [Runtime.advance, Option.some.injEq] at advanced
      subst advanced
      cases found : Runtime.selected request.packet keys with
      | none =>
        rw [found] at chosen
        cases chosen
      | some selected =>
        rw [found] at chosen
        obtain rfl := List.mem_singleton.mp chosen
        obtain ⟨among, alone⟩ := selected_of_mem found
        refine List.mem_filter.mpr ⟨?_, decide_eq_true alone⟩
        exact (serving.reading _ listed).returned key among
  | _ =>
    rw [phase] at advanced
    simp [Runtime.advance] at advanced

/-- What holds in every state of a run. -/
structure Invariant (state : State) : Prop where
  store : Management.Invariant state.store
  serving : ∀ request ∈ state.requests, Serving request
  present : ∀ request ∈ state.requests, ∀ key ∈ request.held,
    state.store.place.entry (pathFor key.summary.id) ≠ none

/-- A request that goes on and holds only records that are there keeps the invariant. -/
theorem Invariant.set {state : State} (holds : Invariant state) (index : Nat) {next : Request}
    (serving : Serving next)
    (present : ∀ key ∈ next.held, state.store.place.entry (pathFor key.summary.id) ≠ none) :
    Invariant { state with requests := state.requests.set index next } := by
  refine ⟨holds.store, fun request member => ?_, fun request member => ?_⟩
  · rcases List.mem_or_eq_of_mem_set member with earlier | rfl
    · exact holds.serving request earlier
    · exact serving
  · rcases List.mem_or_eq_of_mem_set member with earlier | rfl
    · exact holds.present request earlier
    · exact present

/-- A step of a listing: what it has read is there. -/
theorem list_serves {request next : Request} {enumeration : Enumeration} {faults : Faults} {place : Place}
    (serving : Serving request) (filed : Management.Filed place.entry)
    (present : ∀ key ∈ request.held, place.entry (pathFor key.summary.id) ≠ none)
    (taken : request.list enumeration faults place = some next) :
    Serving next ∧ ∀ key ∈ next.held, place.entry (pathFor key.summary.id) ≠ none := by
  unfold Request.list at taken
  split at taken
  · rename_i continuation asks
    split at taken
    · rename_i idle
      cases taken
      refine ⟨⟨serving.complies, ?_, nofun⟩, present⟩
      rintro listing ⟨⟩
      show Reads request.read _
      rw [serving.idle idle]
      exact .called
    · rename_i operation rest listed
      cases taken
      have reads := serving.reading _ listed
      refine ⟨⟨serving.complies, ?_, nofun⟩, fun key member => ?_⟩
      · rintro listing ⟨⟩
        exact reads_answer reads _
      · rw [held_of_asks asks] at present
        have split := member
        rw [held_of_asks (by exact asks)] at split
        rcases List.mem_append.mp split with carries | found
        · exact present key (List.mem_append_left _ carries)
        · obtain ⟨read, chosen⟩ := List.mem_filter.mp found
          rcases present_of_read reads filed enumeration faults key read with earlier | stands
          · exact present key (List.mem_append_right _ (List.mem_filter.mpr ⟨earlier, chosen⟩))
          · exact stands
    · rename_i result listed
      cases taken
      obtain ⟨_, _, _, later⟩ := answered_eq serving asks result
      exact ⟨later, fun key member => present key (held_chosen serving asks listed key member)⟩
  · cases taken

/-- Any other step of a request. -/
theorem perform_serves {request next : Request}
    {environment : (operation : Runtime.Operation) → Runtime.Answer operation} (serving : Serving request)
    (taken : request.perform environment = some next) :
    Serving next ∧ ∀ key ∈ next.held, key ∈ request.held := by
  unfold Request.perform at taken
  split at taken
  · cases taken
  · cases taken
  · rename_i operation continuation other asks
    cases taken
    obtain ⟨_, _, _, later⟩ := answered_eq serving asks (environment operation)
    refine ⟨later, held_performed serving asks _ ?_⟩
    rintro rfl
    exact other continuation rfl HEq.rfl

section

variable {settings : Runtime.Settings}

/-- Every step that spares the held records keeps the invariant. -/
theorem invariant_step (state : State) (action : Action) (next : State) (holds : Invariant state)
    (spares : Spares state action) (taken : step settings state action = some next) : Invariant next := by
  cases action with
  | receive packet =>
    cases taken
    refine ⟨holds.store, fun request member => ?_, fun request member => ?_⟩
    · rcases List.mem_append.mp member with earlier | last
      · exact holds.serving request earlier
      · rw [List.mem_singleton.mp last]
        exact ⟨(Runtime.handle_complies settings packet).weaken fun _ _ _ => trivial, nofun, fun _ => rfl⟩
    · rcases List.mem_append.mp member with earlier | last
      · exact holds.present request earlier
      · rw [List.mem_singleton.mp last]
        exact nofun
  | list index enumeration faults =>
    obtain ⟨request, found, taken⟩ := Option.bind_eq_some_iff.mp taken
    obtain ⟨later, listed, same⟩ := Option.bind_eq_some_iff.mp taken
    cases same
    have member := List.mem_of_getElem? found
    obtain ⟨serving, present⟩ := list_serves (holds.serving request member) holds.store.filed
      (holds.present request member) listed
    exact holds.set index serving present
  | perform index environment =>
    obtain ⟨request, found, taken⟩ := Option.bind_eq_some_iff.mp taken
    obtain ⟨later, performed, same⟩ := Option.bind_eq_some_iff.mp taken
    cases same
    have member := List.mem_of_getElem? found
    obtain ⟨serving, held⟩ := perform_serves (holds.serving request member) performed
    exact holds.set index serving fun key carries => holds.present request member key (held key carries)
  | manage action =>
    obtain ⟨later, managed, same⟩ := Option.bind_eq_some_iff.mp taken
    cases same
    refine ⟨Management.invariant_step holds.store managed, holds.serving, fun request member key held => ?_⟩
    refine Management.present_step holds.store managed ?_ (holds.present request member key held)
    exact fun unlinked => spares _ unlinked request member key held rfl

/-- The invariant holds at first. -/
theorem invariant_initial {records : Records} {place : Place} (stored : Stored records place) :
    Invariant (.initial place) :=
  ⟨Management.invariant_initial stored, nofun, nofun⟩

/-- Deletion takes effect. Let any number of requests be served while command-line
processes save and delete records of a well-formed store, in any interleaving of their
operations and with any failures, in which no deletion unlinks a record that an
unfinished request has read for itself or chosen and not yet signed with. Then no
request ever issues a signing command for a record whose deletion has returned
successfully and that was not saved since. -/
theorem deletion_takes_effect {records : Records} {place : Place} (stored : Stored records place)
    {actions : List Action} {state : State}
    (spared : Transition.Along (step settings) Spares (.initial place) actions)
    (reached : Transition.run (step settings) (.initial place) actions = some state)
    {request : Request} (served : request ∈ state.requests) {key : StoredKey} {digest : Bytes}
    {authorization : TpmAuthorization} {next : Except TpmError Bytes → Runtime.Action (Except String Bytes)}
    (signs : request.program = .ask (.sign key digest authorization) next) :
    key.summary.id ∉ state.store.deleted := by
  have holds := Transition.invariant_along invariant_step (invariant_initial stored) spared reached
  intro deleted
  obtain ⟨absent, _⟩ := holds.store.deleted _ deleted
  refine holds.present request served key ?_ absent
  have complies := (holds.serving request served).complies
  rw [signs] at complies
  obtain ⟨_, advanced, _⟩ := complies (.error .unavailable)
  rw [held_of_asks signs]
  apply List.mem_append_left
  cases phase : request.phase with
  | chosen chosen =>
    rw [phase] at advanced
    simp only [Runtime.advance] at advanced
    split at advanced
    · rename_i permitted
      exact List.mem_singleton.mpr permitted.1
    · cases advanced
  | pinned chosen pin =>
    rw [phase] at advanced
    simp only [Runtime.advance] at advanced
    split at advanced
    · rename_i permitted
      exact List.mem_singleton.mpr permitted.1
    · cases advanced
  | _ =>
    rw [phase] at advanced
    simp [Runtime.advance] at advanced

end

namespace Sample

def settings : Runtime.Settings := ⟨fun _ _ => [9], false⟩

/-- A sign request for the key that needs no PIN. -/
def packet : Bytes := [13, 0, 0, 0, 1, 7, 0, 0, 0, 0, 0, 0, 0, 0]

/-- The client stays connected, and the TPM is already open. -/
def environment : (operation : Runtime.Operation) → Runtime.Answer operation
  | .cancelled => false
  | .listKeys => .ok []
  | .requestPin _ => .error "authorization timed out"
  | .lockTpm => .ok true
  | .connectTpm => .ok ()
  | .sign _ _ _ => .error .unavailable
  | .clock => none
  | .appendHistory _ => .ok ()

def healthy : Faults := fun _ => none

/-- A whole deletion. -/
def deleting (id : KeyId) : List Action :=
  [.manage (.begin (.delete id)), .manage (.manage 0 healthy), .manage (.manage 0 healthy),
    .manage (.manage 0 healthy), .manage (.manage 0 healthy), .manage (.finish 0)]

/-- The second record is deleted, and a request then lists the first. -/
def listing : List Action :=
  deleting ⟨"l"⟩ ++ [.receive packet, .perform 0 environment, .list 0 Sharing.Sample.inOrder healthy,
    .list 0 Sharing.Sample.inOrder healthy, .list 0 Sharing.Sample.inOrder healthy,
    .list 0 Sharing.Sample.inOrder healthy, .list 0 Sharing.Sample.inOrder healthy]

/-- The request looks whether its client is still there and takes the TPM. -/
def signing : List Action := [.perform 0 environment, .perform 0 environment]

/-- The directory with the first record alone. -/
def remainder : Place :=
  .directory 0o700 ((∅ : Files).insert (pathFor ⟨"k"⟩) (recordFile Durability.Sample.key))

/-- What the request does with the listed records. -/
def resumed (keys : List StoredKey) : Runtime.Action (Except String Bytes) := (do
  let key ← Runtime.findKey keys [7]
  let result ← (liftM (Runtime.signWithKey settings key []).run : Runtime.Routine String (Except String Bytes))
  (liftM (Runtime.recordHistory settings key (Runtime.outcomeOf result)) : Runtime.Routine String Unit)
  result : Runtime.Routine String Bytes).run

/-- The state after the listing has returned these records. -/
def listed (keys : List StoredKey) : State :=
  ⟨⟨remainder, [], [⟨"l"⟩]⟩, [⟨packet, resumed keys, (Runtime.selected packet keys).elim .idle .chosen, none, []⟩]⟩

/-- The request has listed the store of the sample. -/
theorem run_listing : Transition.run (step settings) (.initial Sharing.Sample.place) listing =
    some (listed [Durability.Sample.key]) := by
  have sorted : [Durability.Sample.key].mergeSort idLe = [Durability.Sample.key] := List.mergeSort_singleton _
  have runs : Transition.run (step settings) (.initial Sharing.Sample.place) listing =
      some (listed ([Durability.Sample.key].mergeSort idLe)) := rfl
  rw [runs, sorted]

/-- The records for which a request is about to sign. -/
def signingFor (request : Request) : Option KeyId :=
  match request.program with
  | .ask (.sign key _ _) _ => some key.summary.id
  | _ => none

/-- A request about to sign for a record asks for that command. -/
theorem signs_of_signingFor {request : Request} {id : KeyId} (signing : signingFor request = some id) :
    ∃ key digest authorization next, request.program = .ask (.sign key digest authorization) next ∧
      key.summary.id = id := by
  unfold signingFor at signing
  split at signing
  · rename_i key digest authorization next signs
    exact ⟨key, digest, authorization, next, signs, Option.some.inj signing⟩
  · cases signing

end Sample

/-- A request signs with the record that stayed, not with the one deleted before. -/
theorem other_deletion_spares_the_signature :
    Transition.Along (step Sample.settings) Spares (.initial Sharing.Sample.place)
        (Sample.listing ++ Sample.signing) ∧
      ∃ state request, Transition.run (step Sample.settings) (.initial Sharing.Sample.place)
          (Sample.listing ++ Sample.signing) = some state ∧ request ∈ state.requests ∧
        Sample.signingFor request = some ⟨"k"⟩ ∧ state.store.deleted = [⟨"l"⟩] ∧
        (⟨"k"⟩ : KeyId) ∉ state.store.deleted := by
  have before : Transition.Along (step Sample.settings) Spares (.initial Sharing.Sample.place) Sample.listing := by
    decide +kernel
  have after : Transition.Along (step Sample.settings) Spares (Sample.listed [Durability.Sample.key])
      Sample.signing := by decide +kernel
  have spared := before.append Sample.run_listing after
  obtain ⟨state, continued⟩ : ∃ state, Transition.run (step Sample.settings) (Sample.listed [Durability.Sample.key])
      Sample.signing = some state := ⟨_, rfl⟩
  have computed : (Transition.run (step Sample.settings) (Sample.listed [Durability.Sample.key])
      Sample.signing).map (fun state => (state.requests.map Sample.signingFor, state.store.deleted)) =
        some ([some ⟨"k"⟩], [⟨"l"⟩]) := rfl
  rw [continued, Option.map_some, Option.some.injEq, Prod.mk.injEq] at computed
  obtain ⟨signing, deleted⟩ := computed
  obtain ⟨request, served, same⟩ : ∃ request ∈ state.requests, Sample.signingFor request = some ⟨"k"⟩ :=
    List.mem_map.mp (signing ▸ List.mem_singleton.mpr rfl)
  have reached := Transition.run_append Sample.run_listing continued
  obtain ⟨key, digest, authorization, next, signs, named⟩ := Sample.signs_of_signingFor same
  refine ⟨spared, state, request, reached, served, same, deleted, ?_⟩
  rw [← named]
  exact deletion_takes_effect Sharing.Sample.stored spared reached served signs

/-- A record that is deleted after a request has chosen it is still signed with. -/
theorem deleted_record_signs :
    Stored Sharing.Sample.records Sharing.Sample.place ∧
      (Transition.run (step Sample.settings) (.initial Sharing.Sample.place)
        (Sample.listing ++ (Sample.deleting ⟨"k"⟩ ++ Sample.signing))).map (fun state =>
          (state.requests.map Sample.signingFor, state.store.deleted)) =
        some ([some ⟨"k"⟩], [⟨"k"⟩, ⟨"l"⟩]) := by
  refine ⟨Sharing.Sample.stored, ?_⟩
  obtain ⟨state, continued⟩ : ∃ state, Transition.run (step Sample.settings) (Sample.listed [Durability.Sample.key])
      (Sample.deleting ⟨"k"⟩ ++ Sample.signing) = some state := ⟨_, rfl⟩
  have computed : (Transition.run (step Sample.settings) (Sample.listed [Durability.Sample.key])
      (Sample.deleting ⟨"k"⟩ ++ Sample.signing)).map (fun state =>
        (state.requests.map Sample.signingFor, state.store.deleted)) = some ([some ⟨"k"⟩], [⟨"k"⟩, ⟨"l"⟩]) := rfl
  rw [Transition.run_append Sample.run_listing continued, ← continued, computed]

end Keyvisor.Revocation
