import Keyvisor.Custody
import Keyvisor.Foundation.Transition

/-!
# Agents that start on one file system

Any number of startups, each a process that asks its operations one after the other, on
one file system that everybody else may change too. A process may end at any point, which
closes what it listens on and leaves its sockets as they are.

Three assumptions are stated for a step. `Steady`: what a startup saw at a path with one
operation is still there when its next operation concerns the same path, and connecting
to a socket that somebody listens on is not refused. `Prompt`: no startup connects to a
socket between its binding and its listening, when it would seem to be deserted. `Gentle`:
nobody else touches a socket that a startup has bound.
-/

namespace Keyvisor.Startup

open Foundation Foundation.Host Sockets Locations Custody

/-- A startup: its user, what it still does, and what its last operation showed. -/
structure Process where
  uid : Nat
  program : Sockets.Action (Except String Serving)
  alive : Bool
  /-- The path of the last operation on one, with the node that it left there. -/
  seen : Option (Path × Nat)
  /-- An operation on the file system was refused. -/
  refused : Bool

/-- A file system and the processes on it. -/
structure State where
  host : Host.State
  processes : List Process

/-- A file system with a root directory and no processes. -/
def State.initial : State := ⟨State.make ⟨∅, [], 0⟩ ⟨true, []⟩ .directory 0o755 0 ⟨0, 0⟩ none, []⟩

/-- What the rest of the system answers. -/
structure Replies where
  inherited : Nat
  activated : Except IoError (Option Nat)
  address : Except IoError (Option Path)
  configuration : Except Configuration.ConfigError Configuration.Config
  spawned : Except IoError Unit

/-- What somebody else does to the file system. A node comes with the socket that is open
on it, if there is one, and with whether that listens already. -/
inductive Change where
  | create (path : Path) (kind : NodeKind) (mode uid : Nat) (identity : Identity) (socket : Option Bool)
  | listen (birth : Nat)
  | protect (path : Path) (mode : Nat)
  | unlink (path : Path)
  | move (source target : Path)
  | shut (birth : Nat)

/-- A startup is launched, does its next operation or dies, or somebody else does
something. -/
inductive Action where
  | launch (uid : Nat) (environment : Environment)
  | proceed (index : Nat) (circumstances : Circumstances) (replies : Replies)
  | die (index : Nat)
  | interfere (change : Change)

/-- The answer to an operation of a process. A listener is inherited from somebody who
has it and listens on it. -/
def respond (uid index : Nat) (circumstances : Circumstances) (replies : Replies) (host : Host.State) :
    (operation : Sockets.Operation) → Option (Sockets.Answer operation × Host.State)
  | .host operation =>
    if fresh circumstances operation host then some (perform uid (some index) circumstances operation host) else none
  | .inheritedSockets => some (replies.inherited, host)
  | .takeUnixListener =>
    match replies.activated with
    | .ok (some birth) =>
      match host.listeners.find? fun listener =>
          listener.accepting && listener.holder == none && listener.birth == birth with
      | some listener =>
        some ((.ok (some birth) : Except IoError (Option Nat)), host.hold (some index) birth listener.identity true)
      | none => none
    | .ok none => some ((.ok none : Except IoError (Option Nat)), host)
    | .error error => some ((.error error : Except IoError (Option Nat)), host)
  | .localAddress _ => some (replies.address, host)
  | .loadConfiguration _ => some (replies.configuration, host)
  | .spawnControlService => some (replies.spawned, host)

/-- The path of an operation. A socket listens without its path. -/
def concerns : Sockets.Operation → Option Path
  | .host (.inspect path) => some path
  | .host (.createDirectories path) => some path
  | .host (.setPermissions path _) => some path
  | .host (.bind path) => some path
  | .host (.connect path) => some path
  | .host (.removeFile path) => some path
  | _ => none

/-- The node at the path of an operation. -/
def shown (operation : Sockets.Operation) (host : Host.State) : Option (Path × Nat) := do
  let path ← concerns operation
  let node ← host.nodes.lookup path
  return (path, node.birth)

/-- What an operation leaves to be seen. Listening shows nothing of the path. -/
def sight (seen : Option (Path × Nat)) (operation : Sockets.Operation) (host : Host.State) : Option (Path × Nat) :=
  match operation with
  | .host (.listen _) => seen
  | _ => shown operation host

/-- The file system is asked. -/
def touches : Sockets.Operation → Bool
  | .host _ => true
  | _ => false

/-- The file system after somebody else did something. -/
def change (host : Host.State) : Change → Option Host.State
  | .create path kind mode uid identity socket =>
    if host.nodes.lookup path = none ∧ host.unused identity ∧ parentStands host path then
      let made := host.make path kind mode uid identity none
      some (match socket with
        | some accepting => made.hold none host.births identity accepting
        | none => made)
    else none
  | .listen birth => some (host.listen none birth)
  | .protect path mode => (host.nodes.lookup path).map fun node => host.change path { node with mode := mode }
  | .unlink path => some (host.unlink path)
  | .move source target =>
    if parentStands host target then
      (host.nodes.lookup source).map fun node => host.move source target node
    else none
  | .shut birth => some (host.shut none birth)

/-- One step of the system. -/
def step (state : State) : Action → Option State
  | .launch uid environment =>
    some { state with processes := state.processes ++ [⟨uid, (start uid environment).run, true, none, false⟩] }
  | .proceed index circumstances replies =>
    match state.processes[index]? with
    | some ⟨uid, .ask operation next, true, seen, refused⟩ =>
      (respond uid index circumstances replies state.host operation).map fun reply =>
        ⟨reply.2, state.processes.set index
          ⟨uid, next reply.1, true, sight seen operation reply.2,
            refused || (touches operation && circumstances.refusal.isSome)⟩⟩
    | _ => none
  | .die index =>
    match state.processes[index]? with
    | some process =>
      if process.alive then
        some ⟨state.host.leave (some index), state.processes.set index { process with alive := false }⟩
      else none
    | none => none
  | .interfere interference => (change state.host interference).map fun host => { state with host := host }

/-! ## Assumptions -/

/-- The path of the operation still has the node that the last operation left there. -/
def undisturbed (seen : Option (Path × Nat)) (operation : Sockets.Operation) (host : Host.State) : Bool :=
  match seen, concerns operation with
  | some (path, birth), some asked =>
    path != asked || (host.nodes.lookup path).any fun node => node.birth == birth
  | _, _ => true

/-- A connection to a socket that somebody listens on is not refused. -/
def reachable (circumstances : Circumstances) (operation : Sockets.Operation) (host : Host.State) : Bool :=
  match operation with
  | .host (.connect path) => circumstances.refusal.isNone || !(host.nodes.lookup path).any host.live
  | _ => true

/-- A socket that is connected to is listened on, or nobody has it open. -/
def prompt (operation : Sockets.Operation) (host : Host.State) : Bool :=
  match operation with
  | .host (.connect path) => (host.nodes.lookup path).all fun node =>
      host.live node || host.listeners.all fun listener => listener.birth != node.birth
  | _ => true

/-- Paths do not change between two operations of a startup on them, and who listens is
reached. -/
def Steady (state : State) : Action → Prop
  | .proceed index circumstances _ =>
    match state.processes[index]? with
    | some ⟨_, .ask operation _, _, seen, _⟩ =>
      undisturbed seen operation state.host && reachable circumstances operation state.host
    | _ => true
  | _ => true

/-- No startup connects to a socket that somebody has bound and does not listen on yet. -/
def Prompt (state : State) : Action → Prop
  | .proceed index _ _ =>
    match state.processes[index]? with
    | some ⟨_, .ask operation _, _, _, _⟩ => prompt operation state.host
    | _ => true
  | _ => true

/-- The paths whose nodes are changed. -/
def changed : Change → List Path
  | .create _ _ _ _ _ _ => []
  | .listen _ => []
  | .protect path _ => [path]
  | .unlink path => [path]
  | .move source target => [source, target]
  | .shut _ => []

/-- Nobody else changes a node that a startup has a socket on. -/
def Gentle (state : State) : Action → Prop
  | .interfere interference => (changed interference).all fun path => (state.host.nodes.lookup path).all fun node =>
      state.host.listeners.all fun listener => listener.birth != node.birth || listener.holder == none
  | _ => true

instance (state : State) (action : Action) : Decidable (Steady state action) := by
  unfold Steady
  split
  · split <;> infer_instance
  · infer_instance

instance (state : State) (action : Action) : Decidable (Prompt state action) := by
  unfold Prompt
  split
  · split <;> infer_instance
  · infer_instance

instance (state : State) (action : Action) : Decidable (Gentle state action) := by
  unfold Gentle
  split <;> infer_instance

/-! ## The account against the file system -/

/-- The node with this birth, wherever it stands, is of this kind. -/
def Known (host : Host.State) (birth : Nat) (kind : NodeKind) : Prop :=
  birth < host.births ∧ ∀ path node, host.nodes.lookup path = some node → node.birth = birth → node.kind = kind

/-- A process has the sockets that it holds, and no others but the one it was given. -/
structure Owned (index : Nat) (host : Host.State) (phase : Phase) : Prop where
  listening : ∀ held ∈ phase.held, ∃ identity, ⟨some index, held.birth, identity, held.accepting⟩ ∈ host.listeners ∧
    ∀ guard, held.guard = some guard → guard = identity
  made : ∀ held ∈ phase.held, ∀ path node, host.nodes.lookup path = some node → node.birth = held.birth →
    node.maker = some index ∧ node.kind = .socket
  accounted : ∀ listener ∈ host.listeners, listener.holder = some index →
    (∃ held ∈ phase.held, held.birth = listener.birth) ∨ phase.taken = some listener.birth
  distinct : (phase.held.map Held.birth).Nodup

/-- What was shown is what the startup takes it for. That nobody has a deserted socket open
supposes that it was not connected to before it was listened on. -/
def Looked (prompt : Prop) (host : Host.State) (seen : Option (Path × Nat)) (phase : Phase) : Prop :=
  match phase.look with
  | .standing path => ∃ birth, seen = some (path, birth) ∧ Known host birth .socket
  | .deserted path => ∃ birth, seen = some (path, birth) ∧ Known host birth .socket ∧
      (prompt → ∀ listener ∈ host.listeners, listener.birth ≠ birth)
  | .bound => ∃ top rest, phase.held = top :: rest ∧ seen = some (top.path, top.birth)
  | .own => ∃ top rest, phase.held = top :: rest ∧ seen = some (top.path, top.birth)
  | .made path => path.names = [] ∨ ∃ birth, seen = some (path, birth) ∧ Known host birth .directory
  | _ => True

/-- A socket that was just bound is the one held last. -/
theorem looked_bound {prompt : Prop} {host : Host.State} {seen : Option (Path × Nat)} {phase : Phase}
    (looks : phase.look = .bound) :
    Looked prompt host seen phase ↔ ∃ top rest, phase.held = top :: rest ∧ seen = some (top.path, top.birth) := by
  rw [Looked, looks]

/-- What is known of a node stays true. -/
theorem Known.evolves {host next : Host.State} {birth : Nat} {kind : NodeKind} (known : Known host birth kind)
    (evolves : Evolves host next) : Known next birth kind := by
  refine ⟨Nat.lt_of_lt_of_le known.1 evolves.births, fun path node found same => ?_⟩
  obtain ⟨place, earlier, before, sameBirth, sameKind, _⟩ | new := evolves.nodes path node found
  · exact sameKind ▸ known.2 place earlier before (sameBirth.trans same)
  · exact absurd known.1 (by omega)

/-- What was shown stays what it was taken for. -/
theorem Looked.evolves {prompt : Prop} {host next : Host.State} {seen : Option (Path × Nat)} {phase : Phase}
    (looked : Looked prompt host seen phase) (evolves : Evolves host next) : Looked prompt next seen phase := by
  unfold Looked at looked ⊢
  split at looked
  · obtain ⟨birth, same, known⟩ := looked
    exact ⟨birth, same, known.evolves evolves⟩
  · obtain ⟨birth, same, known, deserted⟩ := looked
    refine ⟨birth, same, known.evolves evolves, fun prompt listener member heard => ?_⟩
    obtain ⟨earlier, before, sameBirth⟩ := evolves.heard listener member (heard ▸ known.1)
    exact deserted prompt earlier before (sameBirth.trans heard)
  · exact looked
  · exact looked
  · obtain empty | ⟨birth, same, known⟩ := looked
    · exact .inl empty
    · exact .inr ⟨birth, same, known.evolves evolves⟩
  · exact trivial

section

variable {prompt : Prop} {index : Nat} {host next : Host.State} {phase reached : Phase}

/-- What is held was made before. -/
theorem Owned.born (owned : Owned index host phase) (sound : host.Sound) {held : Held} (member : held ∈ phase.held) :
    held.birth < host.births := by
  obtain ⟨identity, listens, _⟩ := owned.listening held member
  exact sound.heard _ listens

/-- What is held does not change as long as the same sockets are open. -/
theorem Owned.evolves (owned : Owned index host phase) (sound : host.Sound) (evolves : Evolves host next)
    (listeners : ∀ listener, listener.holder = some index → (listener ∈ next.listeners ↔ listener ∈ host.listeners)) :
    Owned index next phase where
  listening held member := by
    obtain ⟨identity, listens, guards⟩ := owned.listening held member
    exact ⟨identity, (listeners _ rfl).mpr listens, guards⟩
  made held member path node found same := by
    obtain ⟨place, earlier, before, sameBirth, sameKind, sameMaker⟩ | new := evolves.nodes path node found
    · rw [← sameKind, ← sameMaker]
      exact owned.made held member place earlier before (sameBirth.trans same)
    · have earlier := owned.born sound member
      omega
  accounted listener member holds := owned.accounted listener ((listeners listener holds).mp member) holds
  distinct := owned.distinct

/-- The same for another account of the same sockets. -/
theorem Owned.account (owned : Owned index host phase) (held : reached.held = phase.held)
    (taken : reached.taken = phase.taken) : Owned index host reached := by
  obtain ⟨listening, made, accounted, distinct⟩ := owned
  rw [← held] at listening made accounted distinct
  rw [← taken] at accounted
  exact ⟨listening, made, accounted, distinct⟩

/-- The same when what is known of the socket held last has changed. -/
theorem Owned.amend {top new : Held} {rest : List Held} (owned : Owned index host phase)
    (first : phase.held = top :: rest) (held : reached.held = new :: rest) (taken : reached.taken = phase.taken)
    (same : new.birth = top.birth) (accepting : new.accepting = top.accepting)
    (guards : ∀ identity, ⟨some index, top.birth, identity, top.accepting⟩ ∈ host.listeners →
      ∀ guard, new.guard = some guard → top.guard = some guard ∨ guard = identity) :
    Owned index host reached := by
  obtain ⟨listening, made, accounted, distinct⟩ := owned
  rw [first] at listening made accounted distinct
  constructor
  · rw [held]
    intro other member
    rcases List.mem_cons.mp member with rfl | member
    · obtain ⟨identity, listens, known⟩ := listening top List.mem_cons_self
      rw [same, accepting]
      exact ⟨identity, listens, fun guard learned => (guards identity listens guard learned).elim (known guard) id⟩
    · exact listening other (List.mem_cons_of_mem _ member)
  · rw [held]
    intro other member
    rcases List.mem_cons.mp member with rfl | member
    · rw [same]
      exact made top List.mem_cons_self
    · exact made other (List.mem_cons_of_mem _ member)
  · rw [held, taken]
    intro listener member holds
    rcases accounted listener member holds with ⟨other, among, birth⟩ | given
    · rcases List.mem_cons.mp among with rfl | among
      · exact .inl ⟨new, List.mem_cons_self, same.trans birth⟩
      · exact .inl ⟨other, List.mem_cons_of_mem _ among, birth⟩
    · exact .inr given
  · rw [held, List.map_cons, same]
    exact distinct

/-- The account of a process agrees with the file system. -/
structure Accounted (prompt : Prop) (index : Nat) (host : Host.State) (seen : Option (Path × Nat)) (phase : Phase) :
    Prop where
  owned : Owned index host phase
  looked : Looked prompt host seen phase

/-- A node that stands is known. -/
theorem known_of_sound {path : Path} {node : Node} (sound : host.Sound) (found : host.nodes.lookup path = some node) :
    Known host node.birth node.kind := by
  refine ⟨sound.born path node found, fun other another shown same => ?_⟩
  obtain rfl := sound.single other path another node shown found same
  exact congrArg Node.kind (Option.some.inj (shown.symm.trans found))

/-- What was seen at the path of the next operation is still there. -/
theorem undisturbed_at {seen : Option (Path × Nat)} {operation : Sockets.Operation} {path : Path} {birth : Nat}
    (steady : undisturbed seen operation host) (saw : seen = some (path, birth))
    (concerned : concerns operation = some path) :
    ∃ node, host.nodes.lookup path = some node ∧ node.birth = birth := by
  simp only [undisturbed, saw, concerned, bne_self_eq_false, Bool.false_or, Option.any_eq_true_iff_get] at steady
  obtain ⟨present, same⟩ := steady
  exact ⟨_, (Option.some_get present).symm, beq_iff_eq.mp same⟩

/-- What stands at the path of an operation is seen. -/
theorem shown_at {operation : Sockets.Operation} {path : Path} {node : Node}
    (concerned : concerns operation = some path)
    (found : host.nodes.lookup path = some node) : shown operation host = some (path, node.birth) := by
  simp only [shown, concerned, found, Option.bind_eq_bind, Option.bind_some, Option.pure_def]

/-- A socket that looks like one's own is one's own: as long as it is open, its identity is
not used for another node. -/
theorem recognised {top : Held} {rest : List Held} {path : Path} {node : Node} (sound : host.Sound)
    (owned : Owned index host phase) (first : phase.held = top :: rest) (found : host.nodes.lookup path = some node)
    (guard : top.guard = some node.identity) : node.birth = top.birth := by
  obtain ⟨identity, listens, guards⟩ := owned.listening top (first ▸ List.mem_cons_self)
  exact (sound.known path node _ listens found).mp (guards node.identity guard)

/-- Looking for the socket held last keeps the account. -/
theorem recognise_accounted {path : Path} {outcome : Except IoError Metadata} {seen : Option (Path × Nat)}
    (sound : host.Sound) (owned : Owned index host phase)
    (truthful : ∀ metadata, outcome = .ok metadata → ∃ node, host.nodes.lookup path = some node ∧
      metadata = node.metadata ∧ seen = some (path, node.birth)) :
    Accounted prompt index host seen (phase.recognise path outcome) := by
  have kept : Kept phase (phase.recognise path outcome) := kept_recognise outcome
  refine ⟨owned.account kept.1 kept.2.1, ?_⟩
  unfold Phase.recognise
  split
  · exact trivial
  · rename_i top rest first
    split
    · rename_i same
      split
      · rename_i guard metadata learned
        obtain ⟨node, found, rfl, saw⟩ := truthful metadata rfl
        split
        · rename_i identity
          refine ⟨top, rest, first, ?_⟩
          rw [saw, same.1, recognised sound owned first found (learned.trans (congrArg some identity.symm))]
        · exact trivial
      · exact trivial
      · exact trivial
    · exact trivial

/-- An inspection keeps the account. -/
theorem inspect_accounted {uid : Nat} {circumstances : Circumstances} {path : Path} {seen : Option (Path × Nat)}
    {outcome : Except IoError Metadata} (sound : host.Sound) (accounted : Accounted prompt index host seen phase)
    (steady : undisturbed seen (.host (.inspect path)) host)
    (answered : perform uid (some index) circumstances (.inspect path) host = (outcome, next))
    (advanced : phase.inspected path outcome = some reached) :
    Accounted prompt index next (shown (.host (.inspect path)) next) reached := by
  obtain ⟨same, truthful⟩ : next = host ∧ ∀ metadata, outcome = .ok metadata → ∃ node,
      host.nodes.lookup path = some node ∧ metadata = node.metadata ∧
        shown (.host (.inspect path)) host = some (path, node.birth) := by
    obtain ⟨rfl, ⟨error, rfl, _⟩ | ⟨node, found, rfl⟩⟩ := inspect_cases answered
    · exact ⟨rfl, nofun⟩
    · refine ⟨rfl, fun metadata same => ⟨node, found, ?_, shown_at rfl found⟩⟩
      cases same
      rfl
  subst same
  unfold Phase.inspected at advanced
  split at advanced
  · split at advanced
    · cases outcome with
      | error error =>
        cases advanced
        exact ⟨accounted.owned.account rfl rfl, trivial⟩
      | ok metadata =>
        obtain ⟨node, found, rfl, saw⟩ := truthful metadata rfl
        cases advanced
        refine ⟨accounted.owned.account rfl rfl, ?_⟩
        by_cases socket : node.kind = .socket
        · rw [show node.metadata.kind = .socket from socket, if_pos rfl]
          exact ⟨node.birth, saw, socket ▸ known_of_sound sound found⟩
        · rw [if_neg (show ¬node.metadata.kind = .socket from socket)]
          exact trivial
    · cases advanced
  · rename_i bound
    obtain ⟨top, rest, first, saw⟩ := (looked_bound bound).mp accounted.looked
    unfold Phase.learn at advanced
    rw [first] at advanced
    dsimp only at advanced
    split at advanced
    · rename_i here
      cases outcome with
      | error error =>
        cases advanced
        exact ⟨accounted.owned.account rfl rfl, trivial⟩
      | ok metadata =>
        obtain ⟨node, found, rfl, _⟩ := truthful metadata rfl
        cases advanced
        obtain ⟨_, here', stays⟩ := undisturbed_at steady saw (here ▸ rfl)
        rw [here, found] at here'
        cases here'
        refine ⟨accounted.owned.amend first rfl rfl rfl rfl ?_, trivial⟩
        rintro identity listens guard learned
        cases learned
        exact .inr ((sound.known path node _ listens found).mpr stays)
    · cases advanced
  · cases advanced
    exact recognise_accounted sound accounted.owned truthful

section

variable {uid : Nat} {circumstances : Circumstances} {path : Path} {seen : Option (Path × Nat)}

/-- Everybody's listeners are as before. -/
theorem Owned.nodes (owned : Owned index host phase) (sound : host.Sound) (evolves : Evolves host next)
    (listeners : next.listeners = host.listeners) : Owned index next phase :=
  owned.evolves sound evolves fun _ _ => by rw [listeners]

/-- Creating directories keeps the account. -/
theorem createDirectories_accounted {outcome : Except IoError Unit} (sound : host.Sound) (soundNext : next.Sound)
    (accounted : Accounted prompt index host seen phase)
    (answered : perform uid (some index) circumstances (.createDirectories path) host = (outcome, next)) :
    Accounted prompt index next (shown (.host (.createDirectories path)) next)
      (phase.see (if outcome.isOk then .made path else .nothing)) := by
  have owned := accounted.owned.nodes sound (.perform answered) (createDirectories_listeners answered)
  refine ⟨owned.account rfl rfl, ?_⟩
  cases outcome with
  | error error => exact trivial
  | ok _ =>
    obtain empty | ⟨node, found, directory⟩ := createDirectories_ok answered
    · exact .inl empty
    · exact .inr ⟨node.birth, shown_at rfl found, directory ▸ known_of_sound soundNext found⟩

/-- Setting permissions keeps the account. -/
theorem setPermissions_accounted {mode : Nat} {outcome : Except IoError Unit} (sound : host.Sound)
    (accounted : Accounted prompt index host seen phase)
    (steady : undisturbed seen (.host (.setPermissions path mode)) host)
    (answered : perform uid (some index) circumstances (.setPermissions path mode) host = (outcome, next))
    (advanced : phase.restrict path mode outcome = some reached) :
    Accounted prompt index next (shown (.host (.setPermissions path mode)) next) reached := by
  have listeners : next.listeners = host.listeners := by
    obtain ⟨rfl, _⟩ | ⟨node, _, _, rfl⟩ := setPermissions_cases answered <;> rfl
  have owned := accounted.owned.nodes sound (.perform answered) listeners
  unfold Phase.restrict at advanced
  split at advanced
  · split at advanced <;> cases advanced
    exact ⟨owned.account rfl rfl, trivial⟩
  · rename_i top rest looks first
    split at advanced <;> cases advanced
    rename_i here
    refine ⟨owned.amend first rfl rfl rfl rfl fun _ _ _ known => .inl known, ?_⟩
    obtain ⟨other, others, same, saw⟩ := (looked_bound looks).mp accounted.looked
    cases first.symm.trans same
    obtain ⟨node, found, birth⟩ := undisturbed_at steady saw (here ▸ rfl)
    obtain ⟨_, _, impossible, _⟩ | ⟨node', found', _, rfl⟩ := setPermissions_cases answered
    · cases impossible
    · rw [here, found'] at found
      cases found
      refine (looked_bound ?_).mpr ⟨_, _, rfl, ?_⟩
      · exact looks
      rw [shown_at rfl lookup_change_self, here, birth]
  · rename_i top rest looks first
    split at advanced <;> cases advanced
    exact ⟨owned.account rfl rfl, trivial⟩
  · cases advanced

/-- A socket that was bound is held. -/
theorem bind_accounted {outcome : Except Refusal Nat} (sound : host.Sound)
    (accounted : Accounted prompt index host seen phase)
    (answered : perform uid (some index) circumstances (.bind path) host = (outcome, next)) :
    Accounted prompt index next (shown (.host (.bind path)) next) (phase.bound path outcome) := by
  have owned := accounted.owned
  obtain ⟨rfl, refusal, rfl⟩ | ⟨absent, _, rfl, rfl⟩ := bind_cases answered
  · unfold Phase.bound
    dsimp only
    split <;> exact ⟨owned.account rfl rfl, trivial⟩
  · have evolves := Evolves.perform answered
    refine ⟨?_, (looked_bound rfl).mpr ⟨_, _, rfl, shown_at rfl lookup_make_self⟩⟩
    constructor
    · intro held member
      rcases List.mem_cons.mp member with rfl | member
      · exact ⟨_, List.mem_cons_self, nofun⟩
      · obtain ⟨identity, listens, guards⟩ := owned.listening held member
        exact ⟨identity, List.mem_cons_of_mem _ listens, guards⟩
    · intro held member place node found same
      rcases List.mem_cons.mp member with rfl | member
      · by_cases here : place = path
        · subst here
          cases lookup_make_self.symm.trans found
          exact ⟨rfl, rfl⟩
        · have before := sound.born place node ((lookup_make here).symm.trans found)
          exact absurd same (Nat.ne_of_lt before)
      · have before := owned.born sound member
        obtain ⟨_, earlier, found, sameBirth, sameKind, sameMaker⟩ | new := evolves.nodes place node found
        · rw [← sameKind, ← sameMaker]
          exact owned.made held member _ earlier found (sameBirth.trans same)
        · omega
    · intro listener member holds
      rcases List.mem_cons.mp member with rfl | member
      · exact .inl ⟨_, List.mem_cons_self, rfl⟩
      · rcases owned.accounted listener member holds with ⟨held, among, birth⟩ | given
        · exact .inl ⟨held, List.mem_cons_of_mem _ among, birth⟩
        · exact .inr given
    · refine List.nodup_cons.mpr ⟨fun member => ?_, owned.distinct⟩
      obtain ⟨held, among, birth⟩ := List.mem_map.mp member
      exact absurd birth (Nat.ne_of_lt (owned.born sound among))

/-- A socket that starts to listen is held as one that does. -/
theorem listen_accounted {birth : Nat} {outcome : Except IoError Unit}
    (accounted : Accounted prompt index host seen phase)
    (answered : perform uid (some index) circumstances (.listen birth) host = (outcome, next))
    (advanced : phase.listened birth outcome = some reached) : Accounted prompt index next seen reached := by
  obtain ⟨owned, looked⟩ := accounted
  unfold Phase.listened at advanced
  split at advanced
  · rename_i top rest _ looks first
    split at advanced <;> cases advanced
    rename_i same
    subst same
    obtain ⟨_, ⟨_, impossible⟩, _⟩ | ⟨_, rfl⟩ := listen_cases answered
    · cases impossible
    obtain ⟨listening, made, accounts, distinct⟩ := owned
    rw [first] at listening made accounts distinct
    refine ⟨⟨?_, ?_, ?_, distinct⟩, ?_⟩
    · intro held member
      rcases List.mem_cons.mp member with rfl | member
      · obtain ⟨identity, listens, guards⟩ := listening top List.mem_cons_self
        exact ⟨identity, List.mem_map.mpr ⟨_, listens, if_pos ⟨rfl, rfl⟩⟩, guards⟩
      · obtain ⟨identity, listens, guards⟩ := listening held (List.mem_cons_of_mem _ member)
        refine ⟨identity, List.mem_map.mpr ⟨_, listens, if_neg fun mine => ?_⟩, guards⟩
        exact (List.nodup_cons.mp distinct).1 (List.mem_map.mpr ⟨held, member, mine.2⟩)
    · intro held member path node found
      rcases List.mem_cons.mp member with rfl | member
      · exact made top List.mem_cons_self path node found
      · exact made held (List.mem_cons_of_mem _ member) path node found
    · intro listener member holds
      obtain ⟨old, before, holder, birth, _⟩ := State.mem_listen member
      rw [← birth]
      rcases accounts old before (holder.trans holds) with ⟨held, among, same⟩ | given
      · rcases List.mem_cons.mp among with rfl | among
        · exact .inl ⟨_, List.mem_cons_self, same⟩
        · exact .inl ⟨held, List.mem_cons_of_mem _ among, same⟩
      · exact .inr given
    · obtain ⟨other, others, same, saw⟩ := (looked_bound looks).mp looked
      cases first.symm.trans same
      refine (looked_bound ?_).mpr ⟨_, _, rfl, saw⟩
      exact looks
  · split at advanced <;> cases advanced
    obtain ⟨rfl, _⟩ | ⟨impossible, _⟩ := listen_cases answered
    · exact ⟨owned.account rfl rfl, trivial⟩
    · cases impossible
  · cases advanced

/-- A socket that refuses to connect is deserted, unless it was connected to too early. -/
theorem connect_accounted {outcome : Except IoError Unit} (accounted : Accounted prompt index host seen phase)
    (steady : undisturbed seen (.host (.connect path)) host)
    (reaches : reachable circumstances (.host (.connect path)) host)
    (prompts : prompt → Startup.prompt (.host (.connect path)) host)
    (answered : perform uid (some index) circumstances (.connect path) host = (outcome, next))
    (advanced : phase.connected path outcome = some reached) :
    Accounted prompt index next (shown (.host (.connect path)) next) reached := by
  unfold Phase.connected at advanced
  split at advanced <;> cases advanced
  rename_i looks
  have looked := accounted.looked
  rw [Looked, looks] at looked
  obtain ⟨birth, saw, known⟩ := looked
  obtain ⟨rfl, rfl | ⟨error, rfl, unrefused⟩⟩ := connect_cases answered
  · exact ⟨accounted.owned.account rfl rfl, trivial⟩
  refine ⟨accounted.owned.account rfl rfl, ?_⟩
  obtain ⟨node, found, rfl⟩ := undisturbed_at steady saw rfl
  refine ⟨node.birth, shown_at rfl found, known, fun early listener member heard => ?_⟩
  have opened := prompts early
  simp only [Startup.prompt, found, Option.all_some, Bool.or_eq_true, List.all_eq_true] at opened
  rcases opened with live | closed
  · simp only [reachable, found, Option.any_some, live, Bool.not_true, Bool.or_false,
      Option.isNone_iff_eq_none] at reaches
    have dead := unrefused reaches node found
    rw [live] at dead
    cases dead
  · exact bne_iff_ne.mp (closed listener member) heard

/-- Removing a file keeps the account. -/
theorem removeFile_accounted {outcome : Except IoError Unit} (sound : host.Sound)
    (accounted : Accounted prompt index host seen phase)
    (answered : perform uid (some index) circumstances (.removeFile path) host = (outcome, next))
    (advanced : phase.removed path outcome = some reached) :
    Accounted prompt index next (shown (.host (.removeFile path)) next) reached := by
  have listeners : next.listeners = host.listeners := by
    obtain ⟨rfl, _⟩ | ⟨node, _, _, _, rfl⟩ := removeFile_cases answered <;> rfl
  have owned := accounted.owned.nodes sound (.perform answered) listeners
  unfold Phase.removed at advanced
  split at advanced
  · split at advanced <;> cases advanced
    refine ⟨owned.account rfl rfl, ?_⟩
    cases outcome <;> exact trivial
  · rename_i top rest looks first
    split at advanced
    · split at advanced <;> cases advanced
      · exact ⟨owned.amend first rfl rfl rfl rfl fun _ _ _ known => .inl known, trivial⟩
      · exact ⟨owned.account rfl rfl, trivial⟩
    · cases advanced
  · cases advanced

/-- A socket that was closed is held no longer. -/
theorem close_accounted {listener : Nat} (accounted : Accounted prompt index host seen phase)
    (advanced : phase.closed listener = some reached) :
    Accounted prompt index (host.shut (some index) listener) none reached := by
  obtain ⟨listening, made, accounts, distinct⟩ := accounted.owned
  have stays {other : Listener} : other ∈ (host.shut (some index) listener).listeners ↔
      other ∈ host.listeners ∧ (other.holder = some index → other.birth ≠ listener) := by
    simp only [Host.State.shut, List.mem_filter, Bool.not_eq_true', Bool.and_eq_false_iff, beq_eq_false_iff_ne]
    rw [Decidable.imp_iff_not_or]
  unfold Phase.closed at advanced
  split at advanced
  · rename_i top rest first
    split at advanced <;> cases advanced
    rename_i same
    obtain ⟨rfl, _⟩ := same
    rw [first] at listening made accounts distinct
    obtain ⟨others, distinct⟩ := List.nodup_cons.mp distinct
    refine ⟨⟨?_, ?_, ?_, distinct⟩, trivial⟩
    · intro held member
      obtain ⟨identity, listens, guards⟩ := listening held (List.mem_cons_of_mem _ member)
      refine ⟨identity, stays.mpr ⟨listens, fun _ same => others ?_⟩, guards⟩
      exact List.mem_map.mpr ⟨held, member, same⟩
    · exact fun held member => made held (List.mem_cons_of_mem _ member)
    · intro other member holds
      obtain ⟨before, different⟩ := stays.mp member
      rcases accounts other before holds with ⟨held, among, birth⟩ | given
      · rcases List.mem_cons.mp among with rfl | among
        · exact absurd birth.symm (different holds)
        · exact .inl ⟨held, among, birth⟩
      · exact .inr given
  · rename_i first
    split at advanced <;> cases advanced
    rename_i given
    rw [first] at listening made accounts distinct
    refine ⟨⟨?_, ?_, ?_, ?_⟩, trivial⟩
    · rw [first]
      exact nofun
    · rw [first]
      exact nofun
    · intro other member holds
      obtain ⟨before, different⟩ := stays.mp member
      rcases accounts other before holds with ⟨_, impossible, _⟩ | same
      · cases impossible
      · rw [given] at same
        exact absurd (Option.some.inj same).symm (different holds)
    · rw [first]
      exact distinct

/-- A given listener is added to what a process holds. -/
theorem take_accounted {listener : Listener} (accounted : Accounted prompt index host seen phase)
    (empty : phase.held = [] ∧ phase.taken = none) :
    Accounted prompt index (host.hold (some index) listener.birth listener.identity true) none
      { phase with taken := some listener.birth, look := .nothing } := by
  obtain ⟨_, _, accounts, distinct⟩ := accounted.owned
  rw [empty.1, empty.2] at accounts
  refine ⟨⟨?_, ?_, ?_, distinct⟩, trivial⟩
  · exact fun held member => absurd (empty.1 ▸ member) List.not_mem_nil
  · exact fun held member => absurd (empty.1 ▸ member) List.not_mem_nil
  · intro other member holds
    rcases List.mem_cons.mp member with rfl | member
    · exact .inr rfl
    · rcases accounts other member holds with ⟨_, impossible, _⟩ | impossible
      · cases impossible
      · cases impossible

/-- What the others do does not change the account of a process. -/
theorem Accounted.apart (accounted : Accounted prompt index host seen phase) (sound : host.Sound)
    (evolves : Evolves host next)
    (apart : Apart index host next) : Accounted prompt index next seen phase :=
  ⟨accounted.owned.evolves sound evolves apart.listeners, accounted.looked.evolves evolves⟩

/-- Every operation of a process keeps its account. -/
theorem respond_accounted {replies : Replies} {operation : Sockets.Operation} {answer : Sockets.Answer operation}
    (sound : host.Sound) (accounted : Accounted prompt index host seen phase) (steady : undisturbed seen operation host)
    (reaches : reachable circumstances operation host) (prompts : prompt → Startup.prompt operation host)
    (responds : respond uid index circumstances replies host operation = some (answer, next))
    (advanced : advance phase operation answer = some reached) :
    Accounted prompt index next (sight seen operation next) reached := by
  cases operation with
  | host operation =>
    simp only [respond] at responds
    split at responds
    · rename_i chosen
      have answered := Option.some.inj responds
      cases operation with
      | inspect path => exact inspect_accounted sound accounted steady answered advanced
      | createDirectories path =>
        cases advanced
        exact createDirectories_accounted sound (sound.perform chosen answered) accounted answered
      | setPermissions path mode => exact setPermissions_accounted sound accounted steady answered advanced
      | bind path =>
        cases advanced
        exact bind_accounted sound accounted answered
      | listen birth => exact listen_accounted accounted answered advanced
      | connect path => exact connect_accounted accounted steady reaches prompts answered advanced
      | removeFile path => exact removeFile_accounted sound accounted answered advanced
      | close listener =>
        cases answered
        exact close_accounted accounted advanced
    · cases responds
  | inheritedSockets =>
    cases responds
    cases advanced
    exact ⟨accounted.owned.account rfl rfl, trivial⟩
  | takeUnixListener =>
    simp only [respond] at responds
    split at responds
    · split at responds
      · rename_i birth _ _ listener found
        cases responds
        obtain ⟨empty, taking⟩ := Option.ite_none_right_eq_some.mp advanced
        cases taking
        have same : listener.birth = birth := by
          have holds := List.find?_some found
          simp only [Bool.and_eq_true, beq_iff_eq] at holds
          exact holds.2
        subst same
        exact take_accounted accounted empty
      · cases responds
    · cases responds
      cases advanced
      exact ⟨accounted.owned.account rfl rfl, trivial⟩
    · cases responds
      cases advanced
      exact ⟨accounted.owned.account rfl rfl, trivial⟩
  | localAddress listener =>
    cases responds
    cases advanced
    exact ⟨accounted.owned.account rfl rfl, trivial⟩
  | loadConfiguration path =>
    cases responds
    cases advanced
    exact ⟨accounted.owned.account rfl rfl, trivial⟩
  | spawnControlService =>
    cases responds
    cases advanced
    exact ⟨accounted.owned.account rfl rfl, trivial⟩

end

end

end Keyvisor.Startup
