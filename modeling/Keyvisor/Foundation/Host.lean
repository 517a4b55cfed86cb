import Keyvisor.Foundation.IoError
import Keyvisor.Foundation.Path
import Keyvisor.Foundation.Program
import Mathlib.Data.List.AList

/-!
# Sockets in a file system

What a file system shows of Unix-domain sockets to the processes that share it. Nodes
stand at paths. Binding a socket makes a node, and only a later operation lets the socket
listen: a connection in between is refused. The node outlives the process that bound it:
connecting to it succeeds only as long as somebody listens on it. A node is identified by
its device and inode numbers, which may be used again for another node, but not while
somebody still has a socket open that is bound to the first one.

Every node is also numbered by its birth, which is never used again and which no
process can see. Whom a node was made by and who has a socket is recorded by number, with
`none` for everybody who is not one of the processes of interest.

Any operation may be refused. What it does otherwise is determined by the nodes and the
listeners, and by the numbers that the file system chooses for new nodes.
-/

namespace Keyvisor.Foundation.Host

/-- What a node is; links and devices are told apart no further. -/
inductive NodeKind where
  | socket
  | directory
  | other
  deriving DecidableEq, Repr

/-- The device and inode numbers of a node. -/
structure Identity where
  device : Nat
  inode : Nat
  deriving DecidableEq, Repr

/-- What the file system knows of a node. -/
structure Node where
  kind : NodeKind
  mode : Nat
  uid : Nat
  identity : Identity
  birth : Nat
  maker : Option Nat
  deriving DecidableEq, Repr

/-- Somebody's open socket that is bound to the node with this birth. It accepts
connections once it listens. -/
structure Listener where
  holder : Option Nat
  birth : Nat
  identity : Identity
  accepting : Bool
  deriving DecidableEq, Repr

/-- What `symlink_metadata` tells of a node. -/
structure Metadata where
  kind : NodeKind
  mode : Nat
  uid : Nat
  identity : Identity
  deriving DecidableEq, Repr

/-- What is told of this node. -/
def Node.metadata (node : Node) : Metadata := ⟨node.kind, node.mode, node.uid, node.identity⟩

/-- A file system with the sockets that are open on it. -/
structure State where
  nodes : AList fun _ : Path => Node
  listeners : List Listener
  births : Nat

/-- A binding refused because the path is in use is told apart from the others. -/
structure Refusal where
  inUse : Bool
  error : IoError
  deriving DecidableEq, Repr

/-- What a process asks of the file system. -/
inductive Operation where
  | inspect (path : Path)
  | createDirectories (path : Path)
  | setPermissions (path : Path) (mode : Nat)
  | bind (path : Path)
  | listen (listener : Nat)
  | connect (path : Path)
  | removeFile (path : Path)
  | close (listener : Nat)
  deriving DecidableEq, Repr

/-- A bound socket is known by the birth of its node. -/
def Answer : Operation → Type
  | .inspect _ => Except IoError Metadata
  | .createDirectories _ => Except IoError Unit
  | .setPermissions _ _ => Except IoError Unit
  | .bind _ => Except Refusal Nat
  | .listen _ => Except IoError Unit
  | .connect _ => Except IoError Unit
  | .removeFile _ => Except IoError Unit
  | .close _ => Unit

/-- What decides an operation besides the state: whether it is refused, with which error
and after how many directories, the identities of the nodes it makes, and the mode that
a new node gets. -/
structure Circumstances where
  refusal : Option IoError
  made : Nat
  identity : Path → Identity
  mode : Nat

namespace State

variable (state : State)

/-- Somebody listens on the node. -/
def live (node : Node) : Bool :=
  node.kind == .socket && state.listeners.any fun listener => listener.accepting && listener.birth == node.birth

/-- A node is put at a path. -/
def make (path : Path) (kind : NodeKind) (mode uid : Nat) (identity : Identity) (maker : Option Nat) : State :=
  { state with
    nodes := state.nodes.insert path ⟨kind, mode, uid, identity, state.births, maker⟩
    births := state.births + 1 }

/-- The node at a path is changed in place. -/
def change (path : Path) (node : Node) : State := { state with nodes := state.nodes.insert path node }

/-- The node at a path is gone; who listens on it does not notice. -/
def unlink (path : Path) : State := { state with nodes := state.nodes.erase path }

/-- The node at one path is moved to another one. -/
def move (source target : Path) (node : Node) : State := (state.unlink source).change target node

/-- Somebody has a socket that is bound to a node. -/
def hold (holder : Option Nat) (birth : Nat) (identity : Identity) (accepting : Bool) : State :=
  { state with listeners := ⟨holder, birth, identity, accepting⟩ :: state.listeners }

/-- Somebody's sockets on a node start to listen. -/
def listen (holder : Option Nat) (birth : Nat) : State :=
  { state with listeners := state.listeners.map fun listener =>
      if listener.holder = holder ∧ listener.birth = birth then { listener with accepting := true } else listener }

/-- Somebody closes the sockets on a node. -/
def shut (holder : Option Nat) (birth : Nat) : State :=
  { state with listeners := state.listeners.filter fun listener =>
      !(listener.holder == holder && listener.birth == birth) }

/-- Every socket of a process is closed when it ends. -/
def leave (holder : Option Nat) : State :=
  { state with listeners := state.listeners.filter fun listener => listener.holder != holder }

end State

/-- Something can be made at a path: the directory around it stands. The current directory
always does. -/
def parentStands (state : State) (path : Path) : Bool :=
  match path.parent with
  | none => false
  | some parent =>
    (!parent.absolute && parent.names == []) || (state.nodes.lookup parent).any fun node => node.kind == .directory

/-- What binding says when something stands at the path. -/
def addressInUse : Refusal := ⟨true, ⟨.other, "Address already in use (os error 98)"⟩⟩

/-- What connecting says when nobody listens. -/
def connectionRefused : IoError := ⟨.other, "Connection refused (os error 111)"⟩

/-- The paths from the first name down to the whole path. -/
def chain (path : Path) : List Path := (List.range path.names.length).map fun depth =>
  ⟨path.absolute, path.names.take (depth + 1)⟩

/-- Missing directories are made one after the other. -/
def makeDirectories (circumstances : Circumstances) (uid : Nat) (maker : Option Nat) :
    List Path → State → Except IoError Unit × State
  | [], state => (.ok (), state)
  | path :: rest, state =>
    match state.nodes.lookup path with
    | none => makeDirectories circumstances uid maker rest
        (state.make path .directory circumstances.mode uid (circumstances.identity path) maker)
    | some node =>
      if node.kind = .directory then makeDirectories circumstances uid maker rest state
      else (.error .notADirectory, state)

/-- The operations of a process with a user, as its circumstances let them happen. -/
def perform (uid : Nat) (process : Option Nat) (circumstances : Circumstances) :
    (operation : Operation) → State → Answer operation × State
  | .inspect path, state =>
    match circumstances.refusal, state.nodes.lookup path with
    | some error, _ => (.error error, state)
    | none, some node => (.ok node.metadata, state)
    | none, none => (.error .noSuchFile, state)
  | .createDirectories path, state =>
    match circumstances.refusal with
    | some error =>
      (.error error, (makeDirectories circumstances uid process ((chain path).take circumstances.made) state).2)
    | none => makeDirectories circumstances uid process (chain path) state
  | .setPermissions path mode, state =>
    match circumstances.refusal, state.nodes.lookup path with
    | some error, _ => (.error error, state)
    | none, some node => (.ok (), state.change path { node with mode := mode })
    | none, none => (.error .noSuchFile, state)
  | .bind path, state =>
    match circumstances.refusal, state.nodes.lookup path with
    | some error, _ => (.error ⟨false, error⟩, state)
    | none, some _ => (.error addressInUse, state)
    | none, none =>
      if parentStands state path then
        (.ok state.births,
          (state.make path .socket circumstances.mode uid (circumstances.identity path) process).hold process
            state.births (circumstances.identity path) false)
      else (.error ⟨false, .noSuchFile⟩, state)
  | .listen birth, state =>
    match circumstances.refusal with
    | some error => (.error error, state)
    | none => (.ok (), state.listen process birth)
  | .connect path, state =>
    match circumstances.refusal, state.nodes.lookup path with
    | some error, _ => (.error error, state)
    | none, some node => (if state.live node then .ok () else .error connectionRefused, state)
    | none, none => (.error .noSuchFile, state)
  | .removeFile path, state =>
    match circumstances.refusal, state.nodes.lookup path with
    | some error, _ => (.error error, state)
    | none, some node =>
      if node.kind = .directory then (.error .isADirectory, state) else (.ok (), state.unlink path)
    | none, none => (.error .noSuchFile, state)
  | .close birth, state => ((), state.shut process birth)

/-! ## Numbers -/

namespace State

/-- No node and no open socket has the identity. -/
def unused (state : State) (identity : Identity) : Bool :=
  state.nodes.entries.all (fun entry => entry.2.identity != identity) &&
    state.listeners.all fun listener => listener.identity != identity

/-- Births are unique, and an identity that somebody has a socket on is that of one node
only. -/
structure Sound (state : State) : Prop where
  born : ∀ path node, state.nodes.lookup path = some node → node.birth < state.births
  heard : ∀ listener ∈ state.listeners, listener.birth < state.births
  single : ∀ left right first second, state.nodes.lookup left = some first →
    state.nodes.lookup right = some second → first.birth = second.birth → left = right
  known : ∀ path node, ∀ listener ∈ state.listeners, state.nodes.lookup path = some node →
    (node.identity = listener.identity ↔ node.birth = listener.birth)

end State

/-- The paths at which an operation may make nodes. -/
def newPaths : Operation → List Path
  | .createDirectories path => chain path
  | .bind path => [path]
  | _ => []

/-- The file system chooses identities that are not in use. -/
def fresh (circumstances : Circumstances) (operation : Operation) (state : State) : Bool :=
  (newPaths operation).all fun path => state.unused (circumstances.identity path)

/-- An unused identity, told node by node and socket by socket. -/
theorem unused_iff {state : State} {identity : Identity} : state.unused identity ↔
    (∀ path node, state.nodes.lookup path = some node → node.identity ≠ identity) ∧
      ∀ listener ∈ state.listeners, listener.identity ≠ identity := by
  rw [State.unused, Bool.and_eq_true, List.all_eq_true, List.all_eq_true]
  constructor
  · rintro ⟨nodes, listeners⟩
    refine ⟨fun path node found => ?_, fun listener member => bne_iff_ne.mp (listeners listener member)⟩
    exact bne_iff_ne.mp (nodes ⟨path, node⟩ (AList.mem_lookup_iff.mp (Option.mem_def.mpr found)))
  · rintro ⟨nodes, listeners⟩
    refine ⟨fun entry member => ?_, fun listener member => bne_iff_ne.mpr (listeners listener member)⟩
    exact bne_iff_ne.mpr (nodes entry.1 entry.2 (Option.mem_def.mp (AList.mem_lookup_iff.mpr member)))

/-! ## What stays the same -/

/-- The same node, perhaps with other permissions. -/
def Same (old new : Node) : Prop := new = { old with mode := new.mode }

/-- A node is the same as itself. -/
theorem same_rfl (node : Node) : Same node node := rfl

/-- Other permissions make no other node. -/
theorem same_change (node : Node) (mode : Nat) : Same node { node with mode := mode } := rfl

section

variable {uid : Nat} {process : Option Nat} {circumstances : Circumstances} {state : State} {path other : Path}
  {kind : NodeKind} {mode : Nat} {identity : Identity} {maker : Option Nat} {node : Node}

/-- Making a node changes nothing at the other paths. -/
theorem lookup_make (different : other ≠ path) :
    (state.make path kind mode uid identity maker).nodes.lookup other = state.nodes.lookup other :=
  AList.lookup_insert_ne different

/-- A node that was made stands where it was made. -/
theorem lookup_make_self : (state.make path kind mode uid identity maker).nodes.lookup path =
    some ⟨kind, mode, uid, identity, state.births, maker⟩ := AList.lookup_insert _

/-- Changing a node changes nothing at the other paths. -/
theorem lookup_change (different : other ≠ path) :
    (state.change path node).nodes.lookup other = state.nodes.lookup other := AList.lookup_insert_ne different

/-- A node that was changed stands where it was changed. -/
theorem lookup_change_self : (state.change path node).nodes.lookup path = some node := AList.lookup_insert _

/-- Removing a node changes nothing at the other paths. -/
theorem lookup_unlink (different : other ≠ path) :
    (state.unlink path).nodes.lookup other = state.nodes.lookup other := AList.lookup_erase_ne different

/-- Nothing stands where a node was removed. -/
theorem lookup_unlink_self : (state.unlink path).nodes.lookup path = none := AList.lookup_erase _ _

/-- After a move a node is the moved one at its target, or an earlier one elsewhere. -/
theorem lookup_move {source target : Path} {moved : Node}
    (shown : (state.move source target moved).nodes.lookup other = some node) :
    (other = target ∧ node = moved) ∨ (other ≠ target ∧ other ≠ source ∧ state.nodes.lookup other = some node) := by
  by_cases same : other = target
  · subst same
    exact .inl ⟨rfl, Option.some.inj (shown.symm.trans lookup_change_self)⟩
  · have left := (lookup_change same).symm.trans shown
    have elsewhere : other ≠ source := by
      rintro rfl
      rw [lookup_unlink_self] at left
      cases left
    exact .inr ⟨same, elsewhere, (lookup_unlink elsewhere).symm.trans left⟩

/-- A node that is there stays when a node is made at a path without one. -/
theorem lookup_make_kept (absent : state.nodes.lookup path = none) (found : state.nodes.lookup other = some node) :
    (state.make path kind mode uid identity maker).nodes.lookup other = some node := by
  have different : other ≠ path := by
    rintro rfl
    rw [absent] at found
    cases found
  rw [lookup_make different, found]

/-- What every made directory keeps, making many of them keeps. -/
theorem makeDirectories_keeps (invariant : State → Prop) {paths : List Path}
    (makes : ∀ state, ∀ path ∈ paths, invariant state → state.nodes.lookup path = none →
      invariant (state.make path .directory circumstances.mode uid (circumstances.identity path) maker))
    (holds : invariant state) : invariant (makeDirectories circumstances uid maker paths state).2 := by
  induction paths generalizing state with
  | nil => exact holds
  | cons path rest inductionHypothesis =>
    have later : ∀ state, ∀ path ∈ rest, invariant state → state.nodes.lookup path = none →
        invariant (state.make path .directory circumstances.mode uid (circumstances.identity path) maker) :=
      fun state path member => makes state path (List.mem_cons_of_mem _ member)
    rw [makeDirectories]
    split
    · rename_i absent
      exact inductionHypothesis later (makes state path List.mem_cons_self holds absent)
    · split
      · exact inductionHypothesis later holds
      · exact holds

/-- What making, binding, listening, changing, removing and closing keep, every operation
keeps. -/
theorem perform_keeps (invariant : State → Prop) {operation : Operation}
    (makes : ∀ whole, operation = .createDirectories whole → ∀ state, ∀ path ∈ chain whole, invariant state →
      state.nodes.lookup path = none →
      invariant (state.make path .directory circumstances.mode uid (circumstances.identity path) process))
    (binds : ∀ path, operation = .bind path → state.nodes.lookup path = none → parentStands state path = true →
      invariant ((state.make path .socket circumstances.mode uid (circumstances.identity path) process).hold
        process state.births (circumstances.identity path) false))
    (listens : ∀ birth, operation = .listen birth → invariant (state.listen process birth))
    (protects : ∀ path mode node, operation = .setPermissions path mode → state.nodes.lookup path = some node →
      invariant (state.change path { node with mode := mode }))
    (removes : ∀ path node, operation = .removeFile path → state.nodes.lookup path = some node →
      circumstances.refusal = none → node.kind ≠ .directory → invariant (state.unlink path))
    (closes : ∀ birth, operation = .close birth → invariant (state.shut process birth))
    (holds : invariant state) : invariant (perform uid process circumstances operation state).2 := by
  cases operation with
  | inspect path => simp only [perform]; split <;> exact holds
  | createDirectories path =>
    simp only [perform]
    split
    · exact makeDirectories_keeps invariant
        (fun state path member => makes _ rfl state path (List.mem_of_mem_take member)) holds
    · exact makeDirectories_keeps invariant (makes _ rfl) holds
  | setPermissions path mode =>
    simp only [perform]
    split
    · exact holds
    · exact protects path mode _ rfl ‹_›
    · exact holds
  | bind path =>
    simp only [perform]
    split
    · exact holds
    · exact holds
    · split
      · exact binds path rfl ‹_› ‹_›
      · exact holds
  | listen birth =>
    simp only [perform]
    split
    · exact holds
    · exact listens birth rfl
  | connect path => simp only [perform]; split <;> exact holds
  | removeFile path =>
    simp only [perform]
    split
    · exact holds
    · split
      · exact holds
      · exact removes path _ rfl ‹_› ‹_› ‹_›
    · exact holds
  | close birth => exact closes birth rfl

/-! ## Outcomes -/

/-- An inspection tells the truth about the node, or fails and changes nothing. -/
theorem inspect_cases {outcome : Except IoError Metadata} {next : State}
    (answered : perform uid process circumstances (.inspect path) state = (outcome, next)) :
    next = state ∧
      ((∃ error, outcome = .error error ∧ (circumstances.refusal = none → state.nodes.lookup path = none)) ∨
      ∃ node, state.nodes.lookup path = some node ∧ outcome = .ok node.metadata) := by
  simp only [perform] at answered
  split at answered <;> cases answered
  · rename_i refused
    exact ⟨rfl, .inl ⟨_, rfl, fun unrefused => by rw [refused] at unrefused; cases unrefused⟩⟩
  · exact ⟨rfl, .inr ⟨_, ‹_›, rfl⟩⟩
  · exact ⟨rfl, .inl ⟨_, rfl, fun _ => ‹_›⟩⟩

/-- Permissions are set on the node at the path, or nothing happens. -/
theorem setPermissions_cases {mode : Nat} {outcome : Except IoError Unit} {next : State}
    (answered : perform uid process circumstances (.setPermissions path mode) state = (outcome, next)) :
    (next = state ∧ ∃ error, outcome = .error error ∧
      (circumstances.refusal = none → state.nodes.lookup path = none)) ∨
    ∃ node, state.nodes.lookup path = some node ∧ outcome = .ok () ∧
      next = state.change path { node with mode := mode } := by
  simp only [perform] at answered
  split at answered <;> cases answered
  · rename_i refused
    exact .inl ⟨rfl, _, rfl, fun unrefused => by rw [refused] at unrefused; cases unrefused⟩
  · exact .inr ⟨_, ‹_›, rfl, rfl⟩
  · exact .inl ⟨rfl, _, rfl, fun _ => ‹_›⟩

/-- A binding makes a node at a free path, on which nobody listens yet, or nothing happens. -/
theorem bind_cases {outcome : Except Refusal Nat} {next : State}
    (answered : perform uid process circumstances (.bind path) state = (outcome, next)) :
    (next = state ∧ ∃ refusal, outcome = .error refusal) ∨
    (state.nodes.lookup path = none ∧ parentStands state path = true ∧ outcome = .ok state.births ∧
      next = (state.make path .socket circumstances.mode uid (circumstances.identity path) process).hold process
        state.births (circumstances.identity path) false) := by
  simp only [perform] at answered
  split at answered
  · cases answered
    exact .inl ⟨rfl, _, rfl⟩
  · cases answered
    exact .inl ⟨rfl, _, rfl⟩
  · split at answered <;> cases answered
    · exact .inr ⟨‹_›, ‹_›, rfl, rfl⟩
    · exact .inl ⟨rfl, _, rfl⟩

/-- A socket starts to listen, or it was refused and nothing happens. -/
theorem listen_cases {birth : Nat} {outcome : Except IoError Unit} {next : State}
    (answered : perform uid process circumstances (.listen birth) state = (outcome, next)) :
    (next = state ∧ (∃ error, outcome = .error error) ∧ circumstances.refusal ≠ none) ∨
      (outcome = .ok () ∧ next = state.listen process birth) := by
  simp only [perform] at answered
  split at answered <;> cases answered
  · rename_i refused
    exact .inl ⟨rfl, ⟨_, rfl⟩, refused ▸ Option.some_ne_none _⟩
  · exact .inr ⟨rfl, rfl⟩

/-- Connecting changes nothing, and when it fails without being refused nobody listens. -/
theorem connect_cases {outcome : Except IoError Unit} {next : State}
    (answered : perform uid process circumstances (.connect path) state = (outcome, next)) :
    next = state ∧ (outcome = .ok () ∨ ∃ error, outcome = .error error ∧
      (circumstances.refusal = none → ∀ node, state.nodes.lookup path = some node → state.live node = false)) := by
  simp only [perform] at answered
  split at answered
  · rename_i refused
    cases answered
    exact ⟨rfl, .inr ⟨_, rfl, fun unrefused => by rw [refused] at unrefused; cases unrefused⟩⟩
  · rename_i node _ found
    obtain ⟨connected, rfl⟩ := Prod.mk.inj answered
    by_cases live : state.live node = true
    · exact ⟨rfl, .inl (connected.symm.trans (if_pos live))⟩
    · refine ⟨rfl, .inr ⟨_, connected.symm.trans (if_neg live), fun _ other same => ?_⟩⟩
      rw [found] at same
      cases same
      exact Bool.eq_false_iff.mpr live
  · rename_i absent
    cases answered
    exact ⟨rfl, .inr ⟨_, rfl, fun _ node found => by rw [absent] at found; cases found⟩⟩

/-- A node that is no directory is removed, or nothing happens. -/
theorem removeFile_cases {outcome : Except IoError Unit} {next : State}
    (answered : perform uid process circumstances (.removeFile path) state = (outcome, next)) :
    (next = state ∧ ∃ error, outcome = .error error ∧
      (circumstances.refusal = none → ∀ node, state.nodes.lookup path = some node → node.kind = .directory)) ∨
    ∃ node, state.nodes.lookup path = some node ∧ node.kind ≠ .directory ∧ outcome = .ok () ∧
      next = state.unlink path := by
  simp only [perform] at answered
  split at answered
  · rename_i refused
    cases answered
    exact .inl ⟨rfl, _, rfl, fun unrefused => by rw [refused] at unrefused; cases unrefused⟩
  · rename_i node _ found
    split at answered <;> cases answered
    · rename_i directory
      refine .inl ⟨rfl, _, rfl, fun _ other same => ?_⟩
      rw [found] at same
      cases same
      exact directory
    · exact .inr ⟨node, found, ‹_›, rfl, rfl⟩
  · rename_i absent
    cases answered
    exact .inl ⟨rfl, _, rfl, fun _ node found => by rw [absent] at found; cases found⟩

/-- Directories that were made or found stand. -/
theorem makeDirectories_ok {paths : List Path}
    (made : (makeDirectories circumstances uid maker paths state).1 = .ok ()) :
    ∀ path ∈ paths, ∃ node, (makeDirectories circumstances uid maker paths state).2.nodes.lookup path = some node ∧
      node.kind = .directory := by
  induction paths generalizing state with
  | nil => exact nofun
  | cons first rest inductionHypothesis =>
    have stays {next : State} {node : Node} (found : next.nodes.lookup first = some node) :
        (makeDirectories circumstances uid maker rest next).2.nodes.lookup first = some node := by
      refine makeDirectories_keeps (fun next => next.nodes.lookup first = some node) ?_ found
      exact fun _ _ _ found absent => lookup_make_kept absent found
    intro path member
    rw [makeDirectories] at made ⊢
    split at made
    · rcases List.mem_cons.mp member with rfl | member
      · exact ⟨_, stays lookup_make_self, rfl⟩
      · exact inductionHypothesis made path member
    · split at made
      · rename_i node found directory
        simp only [directory, ↓reduceIte]
        rcases List.mem_cons.mp member with rfl | member
        · exact ⟨node, stays found, directory⟩
        · exact inductionHypothesis made path member
      · cases made

/-- A path with names is the last one of its chain. -/
theorem mem_chain (something : path.names ≠ []) : path ∈ chain path := by
  have positive : 0 < path.names.length := List.length_pos_iff.mpr something
  refine List.mem_map.mpr ⟨path.names.length - 1, List.mem_range.mpr (by omega), ?_⟩
  rw [Nat.sub_add_cancel positive, List.take_length]

/-- A directory that was created stands, unless it is where one always stands. -/
theorem createDirectories_ok {next : State}
    (answered : perform uid process circumstances (.createDirectories path) state = (.ok (), next)) :
    path.names = [] ∨ ∃ node, next.nodes.lookup path = some node ∧ node.kind = .directory := by
  simp only [perform] at answered
  split at answered
  · cases answered
  · by_cases something : path.names = []
    · exact .inl something
    · have stands := makeDirectories_ok (congrArg Prod.fst answered) path (mem_chain something)
      rw [answered] at stands
      exact .inr stands

/-- Whatever was there stays, and only directories are new. -/
theorem createDirectories_nodes {outcome : Except IoError Unit} {next : State}
    (answered : perform uid process circumstances (.createDirectories path) state = (outcome, next)) :
    (∀ place node, state.nodes.lookup place = some node → next.nodes.lookup place = some node) ∧
      ∀ place node, next.nodes.lookup place = some node →
        state.nodes.lookup place = some node ∨ node.kind = .directory := by
  let grown (next : State) : Prop :=
    (∀ place node, state.nodes.lookup place = some node → next.nodes.lookup place = some node) ∧
      ∀ place node, next.nodes.lookup place = some node → state.nodes.lookup place = some node ∨ node.kind = .directory
  suffices grows : grown (perform uid process circumstances (.createDirectories path) state).2 by
    rwa [answered] at grows
  refine perform_keeps grown ?_ ?_ ?_ ?_ ?_ ?_ ⟨fun _ _ found => found, fun _ _ found => .inl found⟩
  · rintro _ _ next made _ ⟨kept, new⟩ absent
    refine ⟨fun place node found => lookup_make_kept absent (kept place node found), fun place node found => ?_⟩
    by_cases same : place = made
    · subst same
      cases lookup_make_self.symm.trans found
      exact .inr rfl
    · exact new place node ((lookup_make same).symm.trans found)
  · exact fun _ impossible _ => nomatch impossible
  · exact fun _ impossible => nomatch impossible
  · exact fun _ _ _ impossible _ => nomatch impossible
  · exact fun _ _ impossible _ _ _ => nomatch impossible
  · exact fun _ impossible => nomatch impossible

/-- No socket is opened, listened on or closed when directories are created. -/
theorem createDirectories_listeners {outcome : Except IoError Unit} {next : State}
    (answered : perform uid process circumstances (.createDirectories path) state = (outcome, next)) :
    next.listeners = state.listeners := by
  suffices same : (perform uid process circumstances (.createDirectories path) state).2.listeners = state.listeners by
    rwa [answered] at same
  refine perform_keeps (fun next => next.listeners = state.listeners) ?_ ?_ ?_ ?_ ?_ ?_ rfl
  · exact fun _ _ _ _ _ same _ => same
  · exact fun _ impossible _ => nomatch impossible
  · exact fun _ impossible => nomatch impossible
  · exact fun _ _ _ impossible _ => nomatch impossible
  · exact fun _ _ impossible _ _ _ => nomatch impossible
  · exact fun _ impossible => nomatch impossible

/-! ## Soundness -/

namespace State

/-- Fewer nodes and fewer sockets are as sound; permissions and who listens do not
matter. -/
theorem Sound.shrink {next : State} (sound : Sound state) (births : state.births ≤ next.births)
    (nodes : ∀ path node, next.nodes.lookup path = some node →
      ∃ old, state.nodes.lookup path = some old ∧ old.birth = node.birth ∧ old.identity = node.identity)
    (listeners : ∀ listener ∈ next.listeners, ∃ old ∈ state.listeners,
      old.birth = listener.birth ∧ old.identity = listener.identity) : Sound next := by
  constructor
  · intro path node found
    obtain ⟨old, before, birth, _⟩ := nodes path node found
    exact birth ▸ Nat.lt_of_lt_of_le (sound.born path old before) births
  · intro listener member
    obtain ⟨old, before, birth, _⟩ := listeners listener member
    exact birth ▸ Nat.lt_of_lt_of_le (sound.heard old before) births
  · intro left right first second atLeft atRight same
    obtain ⟨_, beforeLeft, birthLeft, _⟩ := nodes left first atLeft
    obtain ⟨_, beforeRight, birthRight, _⟩ := nodes right second atRight
    exact sound.single left right _ _ beforeLeft beforeRight (by rw [birthLeft, birthRight, same])
  · intro path node listener member found
    obtain ⟨_, before, birth, identity⟩ := nodes path node found
    obtain ⟨old, open', sameBirth, sameIdentity⟩ := listeners listener member
    rw [← birth, ← identity, ← sameBirth, ← sameIdentity]
    exact sound.known path _ old open' before

/-- Sockets that were open before are as sound as they were. -/
theorem Sound.fewer {next : State} (sound : Sound state) (births : state.births ≤ next.births)
    (nodes : ∀ path node, next.nodes.lookup path = some node →
      ∃ old, state.nodes.lookup path = some old ∧ old.birth = node.birth ∧ old.identity = node.identity)
    (listeners : ∀ listener ∈ next.listeners, listener ∈ state.listeners) : Sound next :=
  sound.shrink births nodes fun listener member => ⟨listener, listeners listener member, rfl, rfl⟩

/-- Permissions keep a file system sound. -/
theorem Sound.change (sound : Sound state) (found : state.nodes.lookup path = some node) (mode : Nat) :
    Sound (state.change path { node with mode := mode }) := by
  refine sound.fewer (Nat.le_refl _) ?_ fun _ member => member
  intro other new shown
  by_cases same : other = path
  · subst same
    rw [lookup_change_self] at shown
    cases shown
    exact ⟨node, found, rfl, rfl⟩
  · rw [lookup_change same] at shown
    exact ⟨new, shown, rfl, rfl⟩

/-- A removal keeps a file system sound. -/
theorem Sound.unlink (sound : Sound state) (path : Path) : Sound (state.unlink path) := by
  refine sound.fewer (Nat.le_refl _) ?_ fun _ member => member
  intro other node shown
  by_cases same : other = path
  · subst same
    rw [lookup_unlink_self] at shown
    cases shown
  · rw [lookup_unlink same] at shown
    exact ⟨node, shown, rfl, rfl⟩

/-- A move keeps a file system sound. -/
theorem Sound.move {source target : Path} (sound : Sound state) (found : state.nodes.lookup source = some node) :
    Sound (state.move source target node) := by
  constructor
  · intro other new shown
    obtain ⟨_, rfl⟩ | ⟨_, _, before⟩ := lookup_move shown
    · exact sound.born source new found
    · exact sound.born other new before
  · exact sound.heard
  · intro left right first second atLeft atRight same
    obtain ⟨rfl, rfl⟩ | ⟨_, different, before⟩ := lookup_move atLeft <;>
      obtain ⟨rfl, rfl⟩ | ⟨_, other, found'⟩ := lookup_move atRight
    · rfl
    · exact absurd (sound.single source right _ _ found found' same).symm other
    · exact absurd (sound.single left source _ _ before found same) different
    · exact sound.single left right first second before found' same
  · intro other new listener member shown
    obtain ⟨_, rfl⟩ | ⟨_, _, before⟩ := lookup_move shown
    · exact sound.known source new listener member found
    · exact sound.known other new listener member before

/-- Closing sockets keeps a file system sound. -/
theorem Sound.shut (sound : Sound state) (holder : Option Nat) (birth : Nat) : Sound (state.shut holder birth) :=
  sound.fewer (Nat.le_refl _) (fun _ node found => ⟨node, found, rfl, rfl⟩)
    fun _ member => (List.mem_filter.mp member).1

/-- The end of a process keeps a file system sound. -/
theorem Sound.leave (sound : Sound state) (holder : Option Nat) : Sound (state.leave holder) :=
  sound.fewer (Nat.le_refl _) (fun _ node found => ⟨node, found, rfl, rfl⟩)
    fun _ member => (List.mem_filter.mp member).1

/-- A new node has a new birth, and no socket is open on its identity. -/
theorem Sound.make (sound : Sound state) (absent : state.nodes.lookup path = none)
    (unheard : ∀ listener ∈ state.listeners, listener.identity ≠ identity) :
    Sound (state.make path kind mode uid identity maker) := by
  have old {other : Path} {node : Node}
      (shown : (state.make path kind mode uid identity maker).nodes.lookup other = some node) :
      (other = path ∧ node.birth = state.births ∧ node.identity = identity) ∨
        (other ≠ path ∧ state.nodes.lookup other = some node) := by
    by_cases same : other = path
    · subst same
      rw [lookup_make_self] at shown
      cases shown
      exact .inl ⟨rfl, rfl, rfl⟩
    · exact .inr ⟨same, by rwa [lookup_make same] at shown⟩
  constructor
  · intro other node shown
    rcases old shown with ⟨_, birth, _⟩ | ⟨_, before⟩
    · exact Nat.lt_succ_of_le (Nat.le_of_eq birth)
    · exact Nat.lt_succ_of_lt (sound.born other node before)
  · exact fun listener member => Nat.lt_succ_of_lt (sound.heard listener member)
  · intro left right first second atLeft atRight same
    rcases old atLeft with ⟨rfl, birth, _⟩ | ⟨_, beforeLeft⟩ <;>
      rcases old atRight with ⟨rfl, other, _⟩ | ⟨_, beforeRight⟩
    · rfl
    · exact absurd (sound.born right second beforeRight) (by omega)
    · exact absurd (sound.born left first beforeLeft) (by omega)
    · exact sound.single left right first second beforeLeft beforeRight same
  · intro other node listener member shown
    rcases old shown with ⟨_, birth, named⟩ | ⟨_, before⟩
    · have earlier := sound.heard listener member
      rw [named]
      constructor
      · exact fun same => absurd same.symm (unheard listener member)
      · intro same
        omega
    · exact sound.known other node listener member before

/-- Somebody has a socket on a node that is there, or on one that a socket is open on. -/
theorem Sound.hold {birth : Nat} {holder : Option Nat} {accepting : Bool} (sound : Sound state)
    (born : birth < state.births)
    (named : ∀ other node, state.nodes.lookup other = some node → (node.identity = identity ↔ node.birth = birth)) :
    Sound (state.hold holder birth identity accepting) := by
  refine ⟨sound.born, ?_, sound.single, ?_⟩
  · intro listener member
    rcases List.mem_cons.mp member with rfl | member
    · exact born
    · exact sound.heard listener member
  · intro other node listener member found
    rcases List.mem_cons.mp member with rfl | member
    · exact named other node found
    · exact sound.known other node listener member found

/-- A socket that listens was open before. -/
theorem mem_listen {holder : Option Nat} {birth : Nat} {listener : Listener}
    (member : listener ∈ (state.listen holder birth).listeners) :
    ∃ old ∈ state.listeners, old.holder = listener.holder ∧ old.birth = listener.birth ∧
      old.identity = listener.identity := by
  obtain ⟨old, before, rfl⟩ := List.mem_map.mp member
  refine ⟨old, before, ?_⟩
  split <;> exact ⟨rfl, rfl, rfl⟩

/-- The sockets of others listen or do not listen as before. -/
theorem mem_listen_of_ne {holder : Option Nat} {birth : Nat} {listener : Listener} (others : holder ≠ listener.holder) :
    listener ∈ (state.listen holder birth).listeners ↔ listener ∈ state.listeners := by
  constructor
  · intro member
    obtain ⟨old, before, same⟩ := List.mem_map.mp member
    split at same
    · rename_i mine
      subst same
      exact absurd mine.1.symm others
    · exact same ▸ before
  · exact fun member => List.mem_map.mpr ⟨listener, member, if_neg fun mine => others mine.1.symm⟩

/-- Who listens does not matter for soundness. -/
theorem Sound.listen (sound : Sound state) (holder : Option Nat) (birth : Nat) : Sound (state.listen holder birth) :=
  sound.shrink (Nat.le_refl _) (fun _ node found => ⟨node, found, rfl, rfl⟩) fun _ member =>
    have ⟨old, before, _, same⟩ := mem_listen member
    ⟨old, before, same⟩

/-- A socket on a new node keeps a file system sound. -/
theorem Sound.bind (sound : Sound state) (absent : state.nodes.lookup path = none) (unused : state.unused identity)
    (holder : Option Nat) (accepting : Bool) :
    Sound ((state.make path kind mode uid identity maker).hold holder state.births identity accepting) := by
  obtain ⟨nodes, listeners⟩ := unused_iff.mp unused
  apply (sound.make absent listeners).hold (Nat.lt_succ_self _)
  intro other node shown
  by_cases same : other = path
  · subst same
    rw [lookup_make_self] at shown
    cases shown
    exact ⟨fun _ => rfl, fun _ => rfl⟩
  · rw [lookup_make same] at shown
    have earlier := sound.born other node shown
    constructor
    · exact fun shared => absurd shared (nodes other node shown)
    · intro shared
      omega

/-- Every operation keeps soundness when the file system chooses unused identities. -/
theorem Sound.perform {operation : Operation} {outcome : Answer operation} {next : State} (sound : Sound state)
    (chosen : fresh circumstances operation state)
    (answered : perform uid process circumstances operation state = (outcome, next)) : Sound next := by
  have unused : ∀ path ∈ newPaths operation, state.unused (circumstances.identity path) :=
    List.all_eq_true.mp chosen
  let unheard (next : State) : Prop := ∀ whole, operation = .createDirectories whole → ∀ path ∈ chain whole,
    ∀ listener ∈ next.listeners, listener.identity ≠ circumstances.identity path
  have start : unheard state := by
    rintro whole rfl path member
    exact (unused_iff.mp (unused path member)).2
  suffices both : Sound (Host.perform uid process circumstances operation state).2 ∧
      unheard (Host.perform uid process circumstances operation state).2 by
    rw [answered] at both
    exact both.1
  refine perform_keeps (fun next => Sound next ∧ unheard next) ?_ ?_ ?_ ?_ ?_ ?_ ?_
  · rintro whole rfl next path member ⟨sound, unheard⟩ absent
    exact ⟨sound.make absent (unheard whole rfl path member), unheard⟩
  · rintro path rfl absent _
    exact ⟨sound.bind absent (unused path List.mem_cons_self) process false, fun _ impossible => by cases impossible⟩
  · rintro birth rfl
    exact ⟨sound.listen process birth, fun _ impossible => by cases impossible⟩
  · rintro path mode node rfl found
    exact ⟨sound.change found mode, fun _ impossible => by cases impossible⟩
  · rintro path node rfl _ _ _
    exact ⟨sound.unlink path, fun _ impossible => by cases impossible⟩
  · rintro birth rfl
    exact ⟨sound.shut process birth, fun _ impossible => by cases impossible⟩
  · exact ⟨sound, start⟩

end State

/-! ## Roots -/

namespace State

/-- Nothing but a directory ever stands at a path without names. -/
def Rooted (state : State) : Prop :=
  ∀ path node, state.nodes.lookup path = some node → path.names = [] → node.kind = .directory

/-- A path whose parent stands has a name. -/
theorem named_of_parentStands (stands : parentStands state path = true) : path.names ≠ [] := by
  intro empty
  simp only [parentStands, Path.parent, empty, ↓reduceIte, Bool.false_eq_true] at stands

/-- A new directory, or a new node at a path with names, leaves the roots directories. -/
theorem Rooted.make (rooted : Rooted state) (allowed : kind = .directory ∨ path.names ≠ []) :
    Rooted (state.make path kind mode uid identity maker) := by
  intro other node shown empty
  by_cases same : other = path
  · subst same
    cases lookup_make_self.symm.trans shown
    exact allowed.elim id fun names => absurd empty names
  · exact rooted other node ((lookup_make same).symm.trans shown) empty

/-- Permissions leave the roots directories. -/
theorem Rooted.change {mode : Nat} (rooted : Rooted state) (found : state.nodes.lookup path = some node) :
    Rooted (state.change path { node with mode := mode }) := by
  intro other new shown empty
  by_cases same : other = path
  · subst same
    cases lookup_change_self.symm.trans shown
    exact rooted other node found empty
  · exact rooted other new ((lookup_change same).symm.trans shown) empty

/-- A removal leaves the roots directories. -/
theorem Rooted.unlink (rooted : Rooted state) (path : Path) : Rooted (state.unlink path) := by
  intro other node shown empty
  by_cases same : other = path
  · subst same
    rw [lookup_unlink_self] at shown
    cases shown
  · exact rooted other node ((lookup_unlink same).symm.trans shown) empty

/-- A move to a path with names leaves the roots directories. -/
theorem Rooted.move {source target : Path} (rooted : Rooted state) (named : target.names ≠ []) :
    Rooted (state.move source target node) := by
  intro other new shown empty
  obtain ⟨rfl, _⟩ | ⟨_, _, before⟩ := lookup_move shown
  · exact absurd empty named
  · exact rooted other new before empty

/-- Every operation leaves the roots directories. -/
theorem Rooted.perform {operation : Operation} {outcome : Answer operation} {next : State} (rooted : Rooted state)
    (answered : perform uid process circumstances operation state = (outcome, next)) : Rooted next := by
  suffices roots : Rooted (Host.perform uid process circumstances operation state).2 by rwa [answered] at roots
  refine perform_keeps Rooted ?_ ?_ ?_ ?_ ?_ ?_ rooted
  · exact fun _ _ _ _ _ rooted _ => rooted.make (.inl rfl)
  · exact fun _ _ _ stands => rooted.make (.inr (named_of_parentStands stands))
  · exact fun _ _ => rooted
  · exact fun _ _ _ _ found => rooted.change found
  · exact fun path _ _ _ _ _ => rooted.unlink path
  · exact fun _ _ => rooted

end State

/-! ## Evolution -/

/-- Every node is an earlier one or a new one, and nobody has a socket on an earlier node
that nobody had one on. -/
structure Evolves (old new : State) : Prop where
  births : old.births ≤ new.births
  nodes : ∀ path node, new.nodes.lookup path = some node →
    (∃ place earlier, old.nodes.lookup place = some earlier ∧ earlier.birth = node.birth ∧
      earlier.kind = node.kind ∧ earlier.maker = node.maker) ∨ old.births ≤ node.birth
  heard : ∀ listener ∈ new.listeners, listener.birth < old.births →
    ∃ earlier ∈ old.listeners, earlier.birth = listener.birth

/-- The process neither made a node nor opened, listened on or closed a socket. -/
structure Apart (process : Nat) (old new : State) : Prop where
  listeners : ∀ listener, listener.holder = some process → (listener ∈ new.listeners ↔ listener ∈ old.listeners)
  makers : ∀ path node, new.nodes.lookup path = some node → node.maker = some process →
    ∃ place earlier, old.nodes.lookup place = some earlier ∧ earlier.birth = node.birth ∧
      earlier.kind = node.kind ∧ earlier.maker = some process

/-- A file system that nothing happens to. -/
theorem Evolves.rfl : Evolves state state where
  births := Nat.le_refl _
  nodes path node found := .inl ⟨path, node, found, Eq.refl _, Eq.refl _, Eq.refl _⟩
  heard listener member _ := ⟨listener, member, Eq.refl _⟩

/-- A file system that nothing happens to, as a process sees it. -/
theorem Apart.rfl {one : Nat} : Apart one state state where
  listeners _ _ := Iff.rfl
  makers path node found made := ⟨path, node, found, Eq.refl _, Eq.refl _, made⟩

section

variable {old : State} {one : Nat} (evolves : Evolves old state) (apart : Apart one old state)

include evolves

/-- A node is made. -/
theorem Evolves.make : Evolves old (state.make path kind mode uid identity maker) where
  births := Nat.le_succ_of_le evolves.births
  nodes other node shown := by
    by_cases same : other = path
    · subst same
      rw [lookup_make_self] at shown
      cases shown
      exact .inr evolves.births
    · rw [lookup_make same] at shown
      exact evolves.nodes other node shown
  heard := evolves.heard

/-- A node is put at a path, perhaps with other permissions. -/
theorem Evolves.change {place : Path} {new : Node} (found : state.nodes.lookup place = some node)
    (same : Same node new) : Evolves old (state.change path new) where
  births := evolves.births
  nodes other shownNode shown := by
    by_cases at' : other = path
    · subst at'
      rw [lookup_change_self] at shown
      cases shown
      rw [same]
      exact evolves.nodes place node found
    · rw [lookup_change at'] at shown
      exact evolves.nodes other shownNode shown
  heard := evolves.heard

/-- A node is removed. -/
theorem Evolves.unlink (path : Path) : Evolves old (state.unlink path) where
  births := evolves.births
  nodes other node shown := by
    by_cases same : other = path
    · subst same
      rw [lookup_unlink_self] at shown
      cases shown
    · rw [lookup_unlink same] at shown
      exact evolves.nodes other node shown
  heard := evolves.heard

/-- A node is moved. -/
theorem Evolves.move {source target : Path} (found : state.nodes.lookup source = some node) :
    Evolves old (state.move source target node) where
  births := evolves.births
  nodes other new shown := by
    obtain ⟨_, rfl⟩ | ⟨_, _, before⟩ := lookup_move shown
    · exact evolves.nodes source new found
    · exact evolves.nodes other new before
  heard := evolves.heard

/-- Sockets are closed. -/
theorem Evolves.shut (holder : Option Nat) (birth : Nat) : Evolves old (state.shut holder birth) where
  births := evolves.births
  nodes := evolves.nodes
  heard listener member := evolves.heard listener (List.mem_filter.mp member).1

/-- A process ends. -/
theorem Evolves.leave (holder : Option Nat) : Evolves old (state.leave holder) where
  births := evolves.births
  nodes := evolves.nodes
  heard listener member := evolves.heard listener (List.mem_filter.mp member).1

/-- A socket is opened on a new node, or on one that a socket was open on. -/
theorem Evolves.hold {holder : Option Nat} {birth : Nat} {accepting : Bool}
    (allowed : birth < old.births → ∃ earlier ∈ old.listeners, earlier.birth = birth) :
    Evolves old (state.hold holder birth identity accepting) where
  births := evolves.births
  nodes := evolves.nodes
  heard listener member earlier := by
    rcases List.mem_cons.mp member with same | member
    · subst same
      exact allowed earlier
    · exact evolves.heard listener member earlier

/-- Sockets start to listen. -/
theorem Evolves.listen (holder : Option Nat) (birth : Nat) : Evolves old (state.listen holder birth) where
  births := evolves.births
  nodes := evolves.nodes
  heard listener member earlier := by
    obtain ⟨before, among, _, same, _⟩ := State.mem_listen member
    rw [← same] at earlier ⊢
    exact evolves.heard before among earlier

omit evolves

include apart

/-- Somebody else makes a node. -/
theorem Apart.make (others : maker ≠ some one) : Apart one old (state.make path kind mode uid identity maker) where
  listeners := apart.listeners
  makers other node shown made := by
    by_cases same : other = path
    · subst same
      rw [lookup_make_self] at shown
      cases shown
      exact absurd made others
    · rw [lookup_make same] at shown
      exact apart.makers other node shown made

/-- A node is put at a path, perhaps with other permissions. -/
theorem Apart.change {place : Path} {new : Node} (found : state.nodes.lookup place = some node)
    (same : Same node new) : Apart one old (state.change path new) where
  listeners := apart.listeners
  makers other shownNode shown made := by
    by_cases at' : other = path
    · subst at'
      rw [lookup_change_self] at shown
      cases shown
      rw [same] at made ⊢
      exact apart.makers place node found made
    · rw [lookup_change at'] at shown
      exact apart.makers other shownNode shown made

/-- A node is removed. -/
theorem Apart.unlink (path : Path) : Apart one old (state.unlink path) where
  listeners := apart.listeners
  makers other node shown made := by
    by_cases same : other = path
    · subst same
      rw [lookup_unlink_self] at shown
      cases shown
    · rw [lookup_unlink same] at shown
      exact apart.makers other node shown made

/-- A node is moved. -/
theorem Apart.move {source target : Path} (found : state.nodes.lookup source = some node) :
    Apart one old (state.move source target node) where
  listeners := apart.listeners
  makers other new shown made := by
    obtain ⟨_, rfl⟩ | ⟨_, _, before⟩ := lookup_move shown
    · exact apart.makers source new found made
    · exact apart.makers other new before made

/-- Somebody else closes sockets. -/
theorem Apart.shut {holder : Option Nat} (others : holder ≠ some one) (birth : Nat) :
    Apart one old (state.shut holder birth) where
  listeners listener held := by
    rw [← apart.listeners listener held]
    refine ⟨fun member => (List.mem_filter.mp member).1, fun member => List.mem_filter.mpr ⟨member, ?_⟩⟩
    have different : listener.holder ≠ holder := fun same => others (same.symm.trans held)
    simp only [beq_eq_false_iff_ne.mpr different, Bool.false_and, Bool.not_false]
  makers := apart.makers

/-- Another process ends. -/
theorem Apart.leave {holder : Option Nat} (others : holder ≠ some one) : Apart one old (state.leave holder) where
  listeners listener held := by
    rw [← apart.listeners listener held]
    refine ⟨fun member => (List.mem_filter.mp member).1, fun member => List.mem_filter.mpr ⟨member, ?_⟩⟩
    exact bne_iff_ne.mpr fun same => others (same.symm.trans held)
  makers := apart.makers

/-- Somebody else opens a socket. -/
theorem Apart.hold {holder : Option Nat} {birth : Nat} {accepting : Bool} (others : holder ≠ some one) :
    Apart one old (state.hold holder birth identity accepting) where
  listeners listener held := by
    rw [← apart.listeners listener held]
    refine ⟨fun member => ?_, List.mem_cons_of_mem _⟩
    rcases List.mem_cons.mp member with rfl | member
    · exact absurd held others
    · exact member
  makers := apart.makers

/-- The sockets of somebody else start to listen. -/
theorem Apart.listen {holder : Option Nat} (others : holder ≠ some one) (birth : Nat) :
    Apart one old (state.listen holder birth) where
  listeners listener held := by
    rw [← apart.listeners listener held]
    exact State.mem_listen_of_ne fun same => others (same.trans held)
  makers := apart.makers

omit apart

end

/-- A file system evolves with every operation. -/
theorem Evolves.perform {operation : Operation} {outcome : Answer operation} {next : State}
    (answered : perform uid process circumstances operation state = (outcome, next)) : Evolves state next := by
  suffices evolves : Evolves state (Host.perform uid process circumstances operation state).2 by
    rwa [answered] at evolves
  refine perform_keeps (fun next => Evolves state next) ?_ ?_ ?_ ?_ ?_ ?_ Evolves.rfl
  · exact fun _ _ _ _ _ evolves _ => evolves.make
  · exact fun path _ _ _ => Evolves.rfl.make.hold fun impossible => absurd impossible (Nat.lt_irrefl _)
  · exact fun birth _ => Evolves.rfl.listen process birth
  · exact fun path mode node _ found => Evolves.rfl.change found (same_change node mode)
  · exact fun path _ _ _ _ _ => Evolves.rfl.unlink path
  · exact fun birth _ => Evolves.rfl.shut process birth

/-- One process is apart from what the others do. -/
theorem Apart.perform {one : Nat} {operation : Operation} {outcome : Answer operation} {next : State}
    (others : process ≠ some one)
    (answered : perform uid process circumstances operation state = (outcome, next)) : Apart one state next := by
  suffices apart : Apart one state (Host.perform uid process circumstances operation state).2 by
    rwa [answered] at apart
  refine perform_keeps (fun next => Apart one state next) ?_ ?_ ?_ ?_ ?_ ?_ Apart.rfl
  · exact fun _ _ _ _ _ apart _ => apart.make others
  · exact fun path _ _ _ => (Apart.rfl.make others).hold others
  · exact fun birth _ => Apart.rfl.listen others birth
  · exact fun path mode node _ found => Apart.rfl.change found (same_change node mode)
  · exact fun path _ _ _ _ _ => Apart.rfl.unlink path
  · exact fun birth _ => Apart.rfl.shut others birth

end

end Keyvisor.Foundation.Host
