import Keyvisor.Startup

/-!
# Agents that leave each other's sockets alone

What the account of a startup means for the paths of its sockets, and what follows for
every run of the system: no startup removes a socket that another one listens on, agents
that serve keep their sockets, and a startup that fails leaves nothing behind.

A startup that connects to a socket between its binding and its listening takes it for
deserted, and removes it once it is served on. Only the last of these results holds
whether or not that happens.
-/

namespace Keyvisor.Coexistence

open Foundation Foundation.Host Foundation.Text Sockets Locations Custody Startup

/-- The last operation about the socket held last had failed. -/
def forsakes : Look → Bool
  | .forsaken => true
  | _ => false

/-- No node has this birth. -/
def Gone (host : Host.State) (birth : Nat) : Prop :=
  ∀ path node, host.nodes.lookup path = some node → node.birth ≠ birth

/-- A socket that a process holds stands at its path. -/
def Stands (uid : Nat) (host : Host.State) (held : Held) : Prop :=
  ∃ node, host.nodes.lookup held.path = some node ∧ node.birth = held.birth ∧ node.uid = uid ∧
    (held.restricted → node.mode = 0o600)

/-- What a process holds stands at its path as long as it is listed, unless somebody had
connected to it too early and has removed it. As long as no operation was refused, no
other socket of its making stands anywhere, and what it forsakes is gone. -/
structure Standing (prompt : Prop) (index uid : Nat) (refused : Bool) (host : Host.State) (phase : Phase) : Prop where
  listed : ∀ held ∈ phase.held, held.listed → Stands uid host held ∨ (¬prompt ∧ Gone host held.birth)
  left : refused = false → ∀ path node, host.nodes.lookup path = some node → node.maker = some index →
    node.kind = .socket → ∃ held ∈ phase.held, held.listed ∧ held.birth = node.birth
  forsaken : refused = false → phase.look = .forsaken → ∃ top rest, phase.held = top :: rest ∧ Gone host top.birth

section

variable {prompt : Prop} {index uid : Nat} {refused : Bool} {circumstances : Circumstances} {host next : Host.State}
  {phase reached : Phase} {seen : Option (Path × Nat)} {path : Path}

/-- A node that is gone does not come back. -/
theorem Gone.evolves {birth : Nat} (gone : Gone host birth) (born : birth < host.births) (evolves : Evolves host next) :
    Gone next birth := by
  intro path node found same
  obtain ⟨place, earlier, before, sameBirth, _⟩ | new := evolves.nodes path node found
  · exact gone place earlier before (sameBirth.trans same)
  · omega

/-- A socket that does not stand at its path is gone. -/
theorem Standing.gone {held : Held} (standing : Standing prompt index uid refused host phase)
    (member : held ∈ phase.held) (listed : held.listed)
    (unseen : ∀ node, host.nodes.lookup held.path = some node → node.birth ≠ held.birth) : Gone host held.birth := by
  rcases standing.listed held member listed with ⟨node, found, birth, _⟩ | ⟨_, gone⟩
  · exact absurd birth (unseen node found)
  · exact gone

/-- Once an operation was refused, less is said. -/
theorem Standing.refuse (standing : Standing prompt index uid refused host phase) (more : Bool) :
    Standing prompt index uid (refused || more) host phase where
  listed := standing.listed
  left smooth := standing.left (Bool.or_eq_false_iff.mp smooth).1
  forsaken smooth := standing.forsaken (Bool.or_eq_false_iff.mp smooth).1

/-- Another account of the same sockets. -/
theorem Standing.account (standing : Standing prompt index uid refused host phase) (held : reached.held = phase.held)
    (looks : forsakes reached.look = false) : Standing prompt index uid refused host reached := by
  obtain ⟨listed, left, _⟩ := standing
  rw [← held] at listed left
  exact ⟨listed, left, fun _ forsaken => by rw [forsaken] at looks; cases looks⟩

/-- The socket held last is forsaken when it is gone. -/
theorem Standing.forsake {top : Held} {rest : List Held} (standing : Standing prompt index uid refused host phase)
    (first : phase.held = top :: rest) (gone : refused = false → Gone host top.birth) :
    Standing prompt index uid refused host (phase.see .forsaken) where
  listed := standing.listed
  left := standing.left
  forsaken smooth _ := ⟨top, rest, first, gone smooth⟩

/-- The identity of the socket held last, and whether it listens, are of no importance
here. -/
theorem Standing.amend {top new : Held} {rest : List Held} (standing : Standing prompt index uid refused host phase)
    (first : phase.held = top :: rest) (held : reached.held = new :: rest) (looks : forsakes reached.look = false)
    (path : new.path = top.path) (birth : new.birth = top.birth) (listed : new.listed = top.listed)
    (restricted : new.restricted = top.restricted) : Standing prompt index uid refused host reached := by
  obtain ⟨stands, left, _⟩ := standing
  rw [first] at stands left
  refine ⟨?_, ?_, fun _ forsaken => by rw [forsaken] at looks; cases looks⟩
  · rw [held]
    intro other member
    rcases List.mem_cons.mp member with rfl | member
    · unfold Stands
      rw [path, birth, listed, restricted]
      exact stands top List.mem_cons_self
    · exact stands other (List.mem_cons_of_mem _ member)
  · rw [held]
    intro smooth place node found maker kind
    obtain ⟨other, member, shown, same⟩ := left smooth place node found maker kind
    rcases List.mem_cons.mp member with rfl | member
    · exact ⟨new, List.mem_cons_self, listed.trans shown, birth.trans same⟩
    · exact ⟨other, List.mem_cons_of_mem _ member, shown, same⟩

/-- The file system has changed: each socket stands as before or is gone, and no other one
of the process's making is there. -/
theorem Standing.evolves (standing : Standing prompt index uid refused host phase) (owned : Owned index host phase)
    (sound : host.Sound) (evolves : Evolves host next)
    (stands : ∀ held ∈ phase.held, held.listed → Stands uid host held →
      Stands uid next held ∨ (¬prompt ∧ Gone next held.birth))
    (left : refused = false → ∀ path node, next.nodes.lookup path = some node → node.maker = some index →
      node.kind = .socket → ∃ held ∈ phase.held, held.listed ∧ held.birth = node.birth) :
    Standing prompt index uid refused next phase where
  listed held member listed := by
    rcases standing.listed held member listed with there | ⟨late, gone⟩
    · exact stands held member listed there
    · exact .inr ⟨late, gone.evolves (owned.born sound member) evolves⟩
  left := left
  forsaken smooth looks := by
    obtain ⟨top, rest, first, gone⟩ := standing.forsaken smooth looks
    exact ⟨top, rest, first, gone.evolves (owned.born sound (first ▸ List.mem_cons_self)) evolves⟩

/-- Nothing has changed at any path. -/
theorem Standing.nodes (standing : Standing prompt index uid refused host phase) (same : next.nodes = host.nodes) :
    Standing prompt index uid refused next phase := by
  obtain ⟨listed, left, forsaken⟩ := standing
  simp only [Stands, Gone, ← same] at listed left forsaken
  exact ⟨listed, left, forsaken⟩

/-- A node of what a process holds is its own socket, and the process has it open. -/
theorem held_node {held : Held} {node : Node} (owned : Owned index host phase) (member : held ∈ phase.held)
    (found : host.nodes.lookup path = some node) (birth : node.birth = held.birth) :
    node.kind = .socket ∧ node.maker = some index ∧
      ∃ identity, ⟨some index, node.birth, identity, held.accepting⟩ ∈ host.listeners := by
  obtain ⟨maker, kind⟩ := owned.made held member path node found birth
  obtain ⟨identity, listens, _⟩ := owned.listening held member
  exact ⟨kind, maker, identity, birth ▸ listens⟩

/-- Looking for the socket held last forsakes it only when it is gone. -/
theorem recognise_standing {outcome : Except IoError Metadata} (sound : host.Sound) (owned : Owned index host phase)
    (standing : Standing prompt index uid refused host phase)
    (truthful : ∀ metadata, outcome = .ok metadata → ∃ node, host.nodes.lookup path = some node ∧
      metadata = node.metadata)
    (missing : ∀ error, outcome = .error error → refused = false → host.nodes.lookup path = none) :
    Standing prompt index uid refused host (phase.recognise path outcome) := by
  unfold Phase.recognise
  split
  · exact standing.account rfl rfl
  · rename_i top rest first
    split
    · rename_i same
      have member : top ∈ phase.held := first ▸ List.mem_cons_self
      split
      · rename_i guard metadata learned
        split
        · exact standing.account rfl rfl
        · rename_i other
          refine standing.forsake first fun _ => standing.gone member same.2 fun node found birth => ?_
          obtain ⟨shown, found', rfl⟩ := truthful metadata rfl
          cases (same.1 ▸ found).symm.trans found'
          obtain ⟨identity, listens, guards⟩ := owned.listening top member
          have named := (sound.known path node _ listens found').mpr birth
          exact other (named.trans (guards guard learned).symm)
      · refine standing.forsake first fun smooth => standing.gone member same.2 fun node found _ => ?_
        rw [same.1, missing _ rfl smooth] at found
        cases found
      · exact standing.account rfl rfl
    · exact standing.account rfl rfl

/-- After an inspection the sockets stand as before. -/
theorem inspect_standing {outcome : Except IoError Metadata} (sound : host.Sound)
    (accounted : Accounted prompt index host seen phase) (standing : Standing prompt index uid refused host phase)
    (unrefused : refused = false → circumstances.refusal = none)
    (steady : undisturbed seen (.host (.inspect path)) host)
    (answered : perform uid (some index) circumstances (.inspect path) host = (outcome, next))
    (advanced : phase.inspected path outcome = some reached) : Standing prompt index uid refused next reached := by
  obtain ⟨same, truthful, missing⟩ : next = host ∧
      (∀ metadata, outcome = .ok metadata → ∃ node, host.nodes.lookup path = some node ∧ metadata = node.metadata) ∧
      ∀ error, outcome = .error error → refused = false → host.nodes.lookup path = none := by
    obtain ⟨rfl, ⟨error, rfl, absent⟩ | ⟨node, found, rfl⟩⟩ := inspect_cases answered
    · exact ⟨rfl, nofun, fun _ _ smooth => absent (unrefused smooth)⟩
    · exact ⟨rfl, fun metadata same => ⟨node, found, (Except.ok.inj same).symm⟩, nofun⟩
  subst same
  unfold Phase.inspected at advanced
  split at advanced
  · split at advanced
    · cases outcome with
      | error error =>
        cases advanced
        exact standing.account rfl rfl
      | ok metadata =>
        cases advanced
        refine standing.account rfl ?_
        dsimp only [Phase.see]
        split <;> rfl
    · cases advanced
  · rename_i bound
    obtain ⟨top, rest, first, saw⟩ := (looked_bound bound).mp accounted.looked
    unfold Phase.learn at advanced
    rw [first] at advanced
    dsimp only at advanced
    split at advanced
    · rename_i here
      cases outcome with
      | error error =>
        cases advanced
        refine standing.forsake first fun smooth => ?_
        obtain ⟨node, found, _⟩ := undisturbed_at steady saw (here ▸ rfl)
        rw [here, missing error rfl smooth] at found
        cases found
      | ok metadata =>
        cases advanced
        exact standing.amend first rfl rfl rfl rfl rfl rfl
    · cases advanced
  · cases advanced
    exact recognise_standing sound accounted.owned standing truthful missing

/-- Creating directories leaves the sockets where they are. -/
theorem createDirectories_standing {outcome : Except IoError Unit} (sound : host.Sound) (owned : Owned index host phase)
    (standing : Standing prompt index uid refused host phase)
    (answered : perform uid (some index) circumstances (.createDirectories path) host = (outcome, next)) :
    Standing prompt index uid refused next phase := by
  obtain ⟨kept, new⟩ := createDirectories_nodes answered
  refine standing.evolves owned sound (.perform answered) ?_ ?_
  · rintro held _ _ ⟨node, found, stands⟩
    exact .inl ⟨node, kept _ node found, stands⟩
  · intro smooth place node found maker kind
    rcases new place node found with before | directory
    · exact standing.left smooth place node before maker kind
    · rw [directory] at kind
      cases kind

/-- No other socket that the process holds has the path of the last one. -/
theorem apart_from_top {top held : Held} {rest : List Held} {node other : Node} (owned : Owned index host phase)
    (first : phase.held = top :: rest) (found : host.nodes.lookup top.path = some node) (birth : node.birth = top.birth)
    (member : held ∈ rest) (stands : host.nodes.lookup held.path = some other) (same : other.birth = held.birth) :
    held.path ≠ top.path := by
  intro here
  rw [here, found] at stands
  cases stands
  have distinct := owned.distinct
  rw [first, List.map_cons, List.nodup_cons] at distinct
  exact distinct.1 (List.mem_map.mpr ⟨held, member, same.symm.trans birth⟩)

/-- What was recognised is the socket held last. -/
theorem looked_own (looks : phase.look = .own) (looked : Looked prompt host seen phase) :
    ∃ top rest, phase.held = top :: rest ∧ seen = some (top.path, top.birth) := by
  rw [Looked, looks] at looked
  exact looked

/-- Permissions are set on a directory or on the socket held last. -/
theorem restricted_node {mode : Nat} {outcome : Except IoError Unit} {node : Node} (rooted : host.Rooted)
    (accounted : Accounted prompt index host seen phase)
    (steady : undisturbed seen (.host (.setPermissions path mode)) host)
    (advanced : phase.restrict path mode outcome = some reached) (found : host.nodes.lookup path = some node) :
    (phase.look = .made path ∧ node.kind = .directory) ∨
      ∃ top rest, phase.look = .bound ∧ phase.held = top :: rest ∧ top.path = path ∧ node.birth = top.birth := by
  unfold Phase.restrict at advanced
  split at advanced
  · rename_i looks
    split at advanced <;> cases advanced
    rename_i same
    subst same
    refine .inl ⟨looks, ?_⟩
    have looked := accounted.looked
    rw [Looked, looks] at looked
    obtain empty | ⟨birth, saw, known⟩ := looked
    · exact rooted _ node found empty
    · obtain ⟨other, found', birth'⟩ := undisturbed_at steady saw rfl
      cases found.symm.trans found'
      exact known.2 _ node found birth'
  all_goals try cases advanced
  all_goals
    rename_i top rest looks first
    split at advanced <;> cases advanced
    rename_i here
    obtain ⟨other, others, same, saw⟩ := (looked_bound looks).mp accounted.looked
    cases first.symm.trans same
    obtain ⟨node', found', birth⟩ := undisturbed_at steady saw (here ▸ rfl)
    rw [here, found] at found'
    cases found'
    exact .inr ⟨_, _, looks, first, here, birth⟩

/-- Permissions do not change what stands where. -/
theorem left_change {node : Node} (mode : Nat) (standing : Standing prompt index uid refused host phase)
    (found : host.nodes.lookup path = some node) : refused = false → ∀ place other,
    (host.change path { node with mode := mode }).nodes.lookup place = some other → other.maker = some index →
      other.kind = .socket → ∃ held ∈ phase.held, held.listed ∧ held.birth = other.birth := by
  intro smooth place other shown maker kind
  by_cases here : place = path
  · subst here
    cases lookup_change_self.symm.trans shown
    exact standing.left smooth place node found maker kind
  · exact standing.left smooth place other ((lookup_change here).symm.trans shown) maker kind

/-- Permissions of a directory are of no importance for the sockets. -/
theorem directory_standing {node : Node} {mode : Nat} (sound : host.Sound) (owned : Owned index host phase)
    (standing : Standing prompt index uid refused host phase) (found : host.nodes.lookup path = some node)
    (directory : node.kind = .directory) :
    Standing prompt index uid refused (host.change path { node with mode := mode }) phase := by
  refine standing.evolves owned sound (Evolves.rfl.change found (same_change node mode)) ?_
    (left_change mode standing found)
  rintro held member _ ⟨other, stands, same, rest⟩
  have elsewhere : held.path ≠ path := by
    rintro rfl
    cases found.symm.trans stands
    have socket := (held_node owned member found same).1
    rw [directory] at socket
    cases socket
  exact .inl ⟨other, (lookup_change elsewhere).trans stands, same, rest⟩

/-- The socket held last gets its permissions. -/
theorem restrict_standing {node : Node} {top : Held} {rest : List Held} (mode : Nat) (sound : host.Sound)
    (owned : Owned index host phase) (standing : Standing prompt index uid refused host phase)
    (first : phase.held = top :: rest) (found : host.nodes.lookup top.path = some node)
    (birth : node.birth = top.birth) :
    Standing prompt index uid refused (host.change top.path { node with mode := mode })
      { phase with held := { top with restricted := mode == 0o600 } :: rest, look := .bound } := by
  have evolves : Evolves host (host.change top.path { node with mode := mode }) :=
    Evolves.rfl.change found (same_change node mode)
  refine ⟨?_, ?_, fun _ impossible => by cases impossible⟩
  · intro held member listed
    rcases List.mem_cons.mp member with rfl | member
    · rcases standing.listed top (first ▸ List.mem_cons_self) listed with ⟨_, stands, _, mine, _⟩ | ⟨_, gone⟩
      · cases found.symm.trans stands
        exact .inl ⟨_, lookup_change_self, birth, mine, fun restricted => beq_iff_eq.mp restricted⟩
      · exact absurd birth (gone _ node found)
    · have among : held ∈ phase.held := first ▸ List.mem_cons_of_mem _ member
      rcases standing.listed held among listed with ⟨other, stands, same, kept⟩ | ⟨late, gone⟩
      · have elsewhere := apart_from_top owned first found birth member stands same
        exact .inl ⟨other, (lookup_change elsewhere).trans stands, same, kept⟩
      · exact .inr ⟨late, gone.evolves (owned.born sound among) evolves⟩
  · intro smooth place other shown maker kind
    obtain ⟨held, member, listed, same⟩ := left_change mode standing found smooth place other shown maker kind
    rw [first] at member
    rcases List.mem_cons.mp member with rfl | member
    · exact ⟨_, List.mem_cons_self, listed, same⟩
    · exact ⟨held, List.mem_cons_of_mem _ member, listed, same⟩

/-- Setting permissions leaves the sockets where they are. -/
theorem setPermissions_standing {mode : Nat} {outcome : Except IoError Unit} (sound : host.Sound) (rooted : host.Rooted)
    (accounted : Accounted prompt index host seen phase) (standing : Standing prompt index uid refused host phase)
    (unrefused : refused = false → circumstances.refusal = none)
    (steady : undisturbed seen (.host (.setPermissions path mode)) host)
    (answered : perform uid (some index) circumstances (.setPermissions path mode) host = (outcome, next))
    (advanced : phase.restrict path mode outcome = some reached) : Standing prompt index uid refused next reached := by
  have owned := accounted.owned
  obtain ⟨rfl, error, rfl, absent⟩ | ⟨node, found, rfl, rfl⟩ := setPermissions_cases answered
  · unfold Phase.restrict at advanced
    split at advanced
    · split at advanced <;> cases advanced
      exact standing.account rfl rfl
    · rename_i impossible
      cases impossible
    · rename_i top rest _ looks first _
      split at advanced <;> cases advanced
      rename_i here
      refine standing.forsake first fun smooth => ?_
      obtain ⟨other, others, same, saw⟩ := (looked_bound looks).mp accounted.looked
      cases first.symm.trans same
      obtain ⟨node, found, _⟩ := undisturbed_at steady saw (here ▸ rfl)
      rw [here, absent (unrefused smooth)] at found
      cases found
    · cases advanced
  · rcases restricted_node rooted accounted steady advanced found with
      ⟨looks, directory⟩ | ⟨top, rest, looks, first, rfl, birth⟩
    · simp only [Phase.restrict, looks, ↓reduceIte, Option.some.injEq] at advanced
      subst advanced
      exact (directory_standing sound owned standing found directory).account rfl rfl
    · simp only [Phase.restrict, looks, first, ↓reduceIte, Option.some.injEq] at advanced
      subst advanced
      exact restrict_standing mode sound owned standing first found birth

/-- A socket that was bound stands at its path. -/
theorem bind_standing {outcome : Except Refusal Nat} (accounted : Accounted prompt index host seen phase)
    (sound : host.Sound) (standing : Standing prompt index uid refused host phase)
    (answered : perform uid (some index) circumstances (.bind path) host = (outcome, next)) :
    Standing prompt index uid refused next (phase.bound path outcome) := by
  have evolves := Evolves.perform answered
  obtain ⟨rfl, refusal, rfl⟩ | ⟨absent, _, rfl, rfl⟩ := bind_cases answered
  · unfold Phase.bound
    dsimp only
    split <;> exact standing.account rfl rfl
  · refine ⟨?_, ?_, fun _ impossible => by cases impossible⟩
    · intro held member listed
      rcases List.mem_cons.mp member with rfl | member
      · exact .inl ⟨_, lookup_make_self, rfl, rfl, nofun⟩
      · rcases standing.listed held member listed with ⟨node, found, stands⟩ | ⟨late, gone⟩
        · exact .inl ⟨node, lookup_make_kept absent found, stands⟩
        · exact .inr ⟨late, gone.evolves (accounted.owned.born sound member) evolves⟩
    · intro smooth place node found maker kind
      by_cases here : place = path
      · subst here
        cases lookup_make_self.symm.trans found
        exact ⟨_, List.mem_cons_self, rfl, rfl⟩
      · obtain ⟨held, member, listed, birth⟩ :=
          standing.left smooth place node ((lookup_make here).symm.trans found) maker kind
        exact ⟨held, List.mem_cons_of_mem _ member, listed, birth⟩

/-- A socket that starts to listen stays where it is. -/
theorem listen_standing {birth : Nat} {outcome : Except IoError Unit}
    (standing : Standing prompt index uid refused host phase)
    (unrefused : refused = false → circumstances.refusal = none)
    (answered : perform uid (some index) circumstances (.listen birth) host = (outcome, next))
    (advanced : phase.listened birth outcome = some reached) : Standing prompt index uid refused next reached := by
  unfold Phase.listened at advanced
  split at advanced
  · rename_i top rest _ looks first
    split at advanced <;> cases advanced
    obtain ⟨_, ⟨_, impossible⟩, _⟩ | ⟨_, rfl⟩ := listen_cases answered
    · cases impossible
    · have stays : Standing prompt index uid refused (host.listen (some index) birth) phase := standing.nodes rfl
      refine stays.amend first rfl ?_ rfl rfl rfl rfl
      dsimp only
      rw [looks]
      rfl
  · rename_i top rest _ _ first
    split at advanced <;> cases advanced
    obtain ⟨rfl, _, refusal⟩ | ⟨impossible, _⟩ := listen_cases answered
    · exact standing.forsake first fun smooth => absurd (unrefused smooth) refusal
    · cases impossible
  · cases advanced

/-- What is removed is a socket that was seen deserted, or the one held last. -/
theorem removed_node {outcome : Except IoError Unit} {node : Node} (accounted : Accounted prompt index host seen phase)
    (steady : undisturbed seen (.host (.removeFile path)) host)
    (advanced : phase.removed path outcome = some reached) (found : host.nodes.lookup path = some node) :
    node.kind = .socket ∧
      ((phase.look = .deserted path ∧ (prompt → ∀ listener ∈ host.listeners, listener.birth ≠ node.birth)) ∨
        ∃ top rest, phase.look = .own ∧ phase.held = top :: rest ∧ top.path = path ∧ top.listed ∧
          node.birth = top.birth) := by
  unfold Phase.removed at advanced
  split at advanced
  · rename_i looks
    split at advanced <;> cases advanced
    rename_i same
    subst same
    have looked := accounted.looked
    rw [Looked, looks] at looked
    obtain ⟨birth, saw, known, deserted⟩ := looked
    obtain ⟨other, found', rfl⟩ := undisturbed_at steady saw rfl
    cases found.symm.trans found'
    exact ⟨known.2 _ node found rfl, .inl ⟨looks, deserted⟩⟩
  · rename_i top rest looks first
    split at advanced
    · rename_i here
      obtain ⟨other, others, same, saw⟩ := looked_own looks accounted.looked
      cases first.symm.trans same
      obtain ⟨node', found', birth⟩ := undisturbed_at steady saw (here.1 ▸ rfl)
      rw [here.1, found] at found'
      cases found'
      obtain ⟨_, kind⟩ := accounted.owned.made _ (first ▸ List.mem_cons_self) path node found birth
      exact ⟨kind, .inr ⟨_, _, looks, first, here.1, here.2, birth⟩⟩
    · cases advanced
  · cases advanced

/-- What is there after a removal was there before, at another path. -/
theorem lookup_unlink_some {place : Path} {node : Node} (found : (host.unlink path).nodes.lookup place = some node) :
    place ≠ path ∧ host.nodes.lookup place = some node := by
  have elsewhere : place ≠ path := by
    rintro rfl
    rw [lookup_unlink_self] at found
    cases found
  exact ⟨elsewhere, (lookup_unlink elsewhere).symm.trans found⟩

/-- A node that was removed is gone. -/
theorem gone_unlink {node : Node} (sound : host.Sound) (found : host.nodes.lookup path = some node) :
    Gone (host.unlink path) node.birth := by
  intro place other shown same
  obtain ⟨elsewhere, before⟩ := lookup_unlink_some shown
  exact elsewhere (sound.single place path other node before found same)

/-- A deserted socket is nobody's, unless it was connected to too early. -/
theorem desert_standing {node : Node} (sound : host.Sound) (owned : Owned index host phase)
    (standing : Standing prompt index uid refused host phase) (found : host.nodes.lookup path = some node)
    (deserted : prompt → ∀ listener ∈ host.listeners, listener.birth ≠ node.birth) :
    Standing prompt index uid refused (host.unlink path) phase := by
  refine standing.evolves owned sound (Evolves.rfl.unlink path) ?_ ?_
  · rintro held member _ ⟨other, stands, same, rest⟩
    by_cases here : held.path = path
    · subst here
      cases found.symm.trans stands
      obtain ⟨_, _, _, listens⟩ := held_node owned member found same
      exact .inr ⟨fun early => deserted early _ listens rfl, same ▸ gone_unlink sound found⟩
    · exact .inl ⟨other, (lookup_unlink here).trans stands, same, rest⟩
  · intro smooth place other shown maker kind
    exact standing.left smooth place other (lookup_unlink_some shown).2 maker kind

/-- The socket held last is removed, and listed no longer. -/
theorem discard_standing {node : Node} {top : Held} {rest : List Held} (sound : host.Sound)
    (owned : Owned index host phase) (standing : Standing prompt index uid refused host phase)
    (first : phase.held = top :: rest) (found : host.nodes.lookup top.path = some node)
    (birth : node.birth = top.birth) :
    Standing prompt index uid refused (host.unlink top.path)
      { phase with held := { top with listed := false } :: rest, look := .nothing } := by
  refine ⟨?_, ?_, fun _ impossible => by cases impossible⟩
  · intro held member listed
    rcases List.mem_cons.mp member with rfl | member
    · cases listed
    · have among : held ∈ phase.held := first ▸ List.mem_cons_of_mem _ member
      rcases standing.listed held among listed with ⟨other, stands, same, kept⟩ | ⟨late, gone⟩
      · have elsewhere := apart_from_top owned first found birth member stands same
        exact .inl ⟨other, (lookup_unlink elsewhere).trans stands, same, kept⟩
      · exact .inr ⟨late, gone.evolves (owned.born sound among) (Evolves.rfl.unlink _)⟩
  · intro smooth place other shown maker kind
    obtain ⟨held, member, listed, same⟩ := standing.left smooth place other (lookup_unlink_some shown).2 maker kind
    rw [first] at member
    rcases List.mem_cons.mp member with rfl | member
    · exact absurd (same.symm.trans birth.symm) (gone_unlink sound found place other shown)
    · exact ⟨held, List.mem_cons_of_mem _ member, listed, same⟩

/-- A removal takes away the socket held last, or one that is not held. -/
theorem removeFile_standing {outcome : Except IoError Unit} (sound : host.Sound)
    (accounted : Accounted prompt index host seen phase) (standing : Standing prompt index uid refused host phase)
    (unrefused : refused = false → circumstances.refusal = none)
    (steady : undisturbed seen (.host (.removeFile path)) host)
    (answered : perform uid (some index) circumstances (.removeFile path) host = (outcome, next))
    (advanced : phase.removed path outcome = some reached) : Standing prompt index uid refused next reached := by
  have owned := accounted.owned
  obtain ⟨rfl, error, rfl, directory⟩ | ⟨node, found, _, rfl, rfl⟩ := removeFile_cases answered
  · have socket {node : Node} (found : next.nodes.lookup path = some node) :=
      (removed_node accounted steady advanced found).1
    unfold Phase.removed at advanced
    split at advanced
    · split at advanced <;> cases advanced
      exact standing.account rfl rfl
    · rename_i top rest looks first
      split at advanced
      · rename_i here
        cases advanced
        refine standing.forsake first fun smooth => ?_
        obtain ⟨other, others, same, saw⟩ := looked_own looks accounted.looked
        cases first.symm.trans same
        obtain ⟨node, found, _⟩ := undisturbed_at steady saw (here.1 ▸ rfl)
        rw [here.1] at found
        have both := directory (unrefused smooth) node found
        rw [socket found] at both
        cases both
      · cases advanced
    · cases advanced
  · obtain ⟨_, ⟨looks, deserted⟩ | ⟨top, rest, looks, first, rfl, shown, birth⟩⟩ :=
      removed_node accounted steady advanced found
    · simp only [Phase.removed, looks, ↓reduceIte, Option.some.injEq, Except.isOk, Except.toBool] at advanced
      subst advanced
      exact (desert_standing sound owned standing found deserted).account rfl rfl
    · simp only [Phase.removed, looks, first, shown, and_self, ↓reduceIte, Option.some.injEq, Except.isOk,
        Except.toBool] at advanced
      subst advanced
      exact discard_standing sound owned standing first found birth

/-- A socket is closed once it is removed or forsaken. -/
theorem close_standing {listener : Nat} (standing : Standing prompt index uid refused host phase)
    (advanced : phase.closed listener = some reached) :
    Standing prompt index uid refused (host.shut (some index) listener) reached := by
  unfold Phase.closed at advanced
  split at advanced
  · rename_i top rest first
    split at advanced <;> cases advanced
    rename_i excused
    refine ⟨?_, ?_, fun _ impossible => by cases impossible⟩
    · exact fun held member => standing.listed held (first ▸ List.mem_cons_of_mem _ member)
    · intro smooth place node found maker kind
      obtain ⟨held, member, listed, birth⟩ := standing.left smooth place node found maker kind
      rw [first] at member
      rcases List.mem_cons.mp member with rfl | member
      · obtain ⟨other, others, same, gone⟩ := standing.forsaken smooth (excused.2 listed)
        cases first.symm.trans same
        exact absurd birth.symm (gone place node found)
      · exact ⟨held, member, listed, birth⟩
  · split at advanced <;> cases advanced
    exact ⟨standing.listed, standing.left, fun _ impossible => by cases impossible⟩

/-- Every operation of a process keeps what it holds standing. -/
theorem respond_standing {replies : Replies} {operation : Sockets.Operation} {answer : Sockets.Answer operation}
    (sound : host.Sound) (rooted : host.Rooted) (accounted : Accounted prompt index host seen phase)
    (standing : Standing prompt index uid refused host phase) (steady : undisturbed seen operation host)
    (responds : respond uid index circumstances replies host operation = some (answer, next))
    (advanced : advance phase operation answer = some reached) :
    Standing prompt index uid (refused || (touches operation && circumstances.refusal.isSome)) next reached := by
  have seeing (look : Look) (looks : forsakes look = false) (reaches : reached = phase.see look)
      (same : next.nodes = host.nodes) : Standing prompt index uid refused next reached := by
    subst reaches
    exact (standing.nodes same).account rfl looks
  cases operation with
  | host operation =>
    simp only [respond] at responds
    split at responds
    · have answered := Option.some.inj responds
      rw [touches, Bool.true_and]
      have stands := standing.refuse circumstances.refusal.isSome
      have unrefused : (refused || circumstances.refusal.isSome) = false → circumstances.refusal = none := fun smooth =>
        Option.isSome_eq_false_iff.mp (Bool.or_eq_false_iff.mp smooth).2 |> Option.isNone_iff_eq_none.mp
      cases operation with
      | inspect path => exact inspect_standing sound accounted stands unrefused steady answered advanced
      | createDirectories path =>
        cases advanced
        refine (createDirectories_standing sound accounted.owned stands answered).account rfl ?_
        dsimp only [Phase.see]
        split <;> rfl
      | setPermissions path mode =>
        exact setPermissions_standing sound rooted accounted stands unrefused steady answered advanced
      | bind path =>
        cases advanced
        exact bind_standing accounted sound stands answered
      | listen birth => exact listen_standing stands unrefused answered advanced
      | connect path =>
        obtain ⟨rfl, _⟩ := connect_cases answered
        obtain ⟨_, reaches⟩ := Option.ite_none_right_eq_some.mp advanced
        refine (seeing _ ?_ (Option.some.inj reaches).symm rfl).refuse _
        split <;> rfl
      | removeFile path => exact removeFile_standing sound accounted stands unrefused steady answered advanced
      | close listener =>
        cases answered
        exact close_standing stands advanced
    · cases responds
  | takeUnixListener =>
    simp only [touches, Bool.false_and, Bool.or_false]
    simp only [respond] at responds
    split at responds
    · split at responds
      · cases responds
        obtain ⟨_, taking⟩ := Option.ite_none_right_eq_some.mp advanced
        cases taking
        exact ⟨standing.listed, standing.left, fun _ impossible => by cases impossible⟩
      · cases responds
    all_goals
      cases responds
      cases advanced
      exact seeing .nothing rfl rfl rfl
  | _ =>
    simp only [touches, Bool.false_and, Bool.or_false]
    cases responds
    cases advanced
    exact seeing .nothing rfl rfl rfl

/-! ## The others -/

/-- A socket that the process made and has open stays where it is, unless it was connected
to too early. -/
def Spares (prompt : Prop) (index : Nat) (host next : Host.State) : Prop :=
  ∀ path node, host.nodes.lookup path = some node → node.kind = .socket → node.maker = some index →
    (∃ listener ∈ host.listeners, listener.holder = some index ∧ listener.birth = node.birth) →
    next.nodes.lookup path = some node ∨ (¬prompt ∧ Gone next node.birth)

/-- Nothing has changed at any path. -/
theorem spares_of_nodes (same : next.nodes = host.nodes) : Spares prompt index host next := fun _ _ found _ _ _ =>
  .inl (same.symm ▸ found)

/-- A process spares the sockets that another one has open. -/
theorem respond_spares {other : Nat} {replies : Replies} {operation : Sockets.Operation}
    {answer : Sockets.Answer operation} (different : other ≠ index) (sound : host.Sound) (rooted : host.Rooted)
    (accounted : Accounted prompt index host seen phase) (steady : undisturbed seen operation host)
    (responds : respond uid index circumstances replies host operation = some (answer, next))
    (advanced : advance phase operation answer = some reached) : Spares prompt other host next := by
  have foreign {node : Node} {top : Held} {rest : List Held} {path : Path} (first : phase.held = top :: rest)
      (found : host.nodes.lookup path = some node) (birth : node.birth = top.birth) : node.maker ≠ some other := by
    intro made
    have mine := (accounted.owned.made top (first ▸ List.mem_cons_self) path node found birth).1
    exact different (Option.some.inj (made.symm.trans mine))
  cases operation with
  | host operation =>
    simp only [respond] at responds
    split at responds
    · have answered := Option.some.inj responds
      intro place node found kind maker listened
      cases operation with
      | inspect path =>
        obtain ⟨rfl, _⟩ := inspect_cases answered
        exact .inl found
      | createDirectories path => exact .inl ((createDirectories_nodes answered).1 place node found)
      | setPermissions path mode =>
        obtain ⟨rfl, _⟩ | ⟨shown, stands, rfl, rfl⟩ := setPermissions_cases answered
        · exact .inl found
        · have elsewhere : place ≠ path := by
            rintro rfl
            cases found.symm.trans stands
            rcases restricted_node rooted accounted steady advanced found with
              ⟨_, directory⟩ | ⟨_, _, _, first, _, birth⟩
            · rw [directory] at kind
              cases kind
            · exact foreign first found birth maker
          exact .inl ((lookup_change elsewhere).trans found)
      | bind path =>
        obtain ⟨rfl, _⟩ | ⟨absent, _, rfl, rfl⟩ := bind_cases answered
        · exact .inl found
        · exact .inl (lookup_make_kept absent found)
      | listen birth =>
        obtain ⟨rfl, _⟩ | ⟨_, rfl⟩ := listen_cases answered <;> exact .inl found
      | connect path =>
        obtain ⟨rfl, _⟩ := connect_cases answered
        exact .inl found
      | removeFile path =>
        obtain ⟨rfl, _⟩ | ⟨shown, stands, _, rfl, rfl⟩ := removeFile_cases answered
        · exact .inl found
        · by_cases here : place = path
          · subst here
            cases found.symm.trans stands
            obtain ⟨_, ⟨_, deserted⟩ | ⟨_, _, _, first, _, _, birth⟩⟩ := removed_node accounted steady advanced found
            · obtain ⟨listener, member, _, hears⟩ := listened
              exact .inr ⟨fun early => deserted early listener member hears, gone_unlink sound found⟩
            · exact absurd maker (foreign first found birth)
          · exact .inl ((lookup_unlink here).trans found)
      | close listener =>
        cases answered
        exact .inl found
    · cases responds
  | takeUnixListener =>
    simp only [respond] at responds
    split at responds
    · split at responds <;> cases responds
      exact spares_of_nodes rfl
    all_goals
      cases responds
      exact spares_of_nodes rfl
  | _ =>
    cases responds
    exact spares_of_nodes rfl

/-- A node that an operation takes away is a socket that nobody listens on, or one that
the process bound. -/
theorem respond_removes {replies : Replies} {operation : Sockets.Operation} {answer : Sockets.Answer operation}
    {node : Node} (early : prompt) (accounted : Accounted prompt index host seen phase)
    (steady : undisturbed seen operation host)
    (responds : respond uid index circumstances replies host operation = some (answer, next))
    (advanced : advance phase operation answer = some reached) (found : host.nodes.lookup path = some node) :
    (∃ same, next.nodes.lookup path = some same ∧ same.birth = node.birth) ∨
      (node.kind = .socket ∧ (host.live node = false ∨ node.maker = some index)) := by
  have stays (same : next.nodes.lookup path = some node) :
      (∃ same, next.nodes.lookup path = some same ∧ same.birth = node.birth) ∨
        (node.kind = .socket ∧ (host.live node = false ∨ node.maker = some index)) := .inl ⟨node, same, rfl⟩
  cases operation with
  | host operation =>
    simp only [respond] at responds
    split at responds
    · have answered := Option.some.inj responds
      cases operation with
      | inspect other =>
        obtain ⟨rfl, _⟩ := inspect_cases answered
        exact stays found
      | createDirectories other => exact stays ((createDirectories_nodes answered).1 path node found)
      | setPermissions other mode =>
        obtain ⟨rfl, _⟩ | ⟨shown, stands, rfl, rfl⟩ := setPermissions_cases answered
        · exact stays found
        · by_cases here : path = other
          · subst here
            cases found.symm.trans stands
            exact .inl ⟨_, lookup_change_self, rfl⟩
          · exact stays ((lookup_change here).trans found)
      | bind other =>
        obtain ⟨rfl, _⟩ | ⟨absent, _, rfl, rfl⟩ := bind_cases answered
        · exact stays found
        · exact stays (lookup_make_kept absent found)
      | listen birth =>
        obtain ⟨rfl, _⟩ | ⟨_, rfl⟩ := listen_cases answered <;> exact stays found
      | connect other =>
        obtain ⟨rfl, _⟩ := connect_cases answered
        exact stays found
      | removeFile other =>
        obtain ⟨rfl, _⟩ | ⟨shown, stands, _, rfl, rfl⟩ := removeFile_cases answered
        · exact stays found
        · by_cases here : path = other
          · subst here
            obtain ⟨socket, ⟨_, deserted⟩ | ⟨top, rest, _, first, _, _, birth⟩⟩ :=
              removed_node accounted steady advanced found
            · refine .inr ⟨socket, .inl ?_⟩
              rw [State.live, Bool.and_eq_false_iff]
              refine .inr (List.any_eq_false.mpr fun listener member => ?_)
              rw [Bool.and_eq_true, beq_iff_eq]
              exact fun hears => deserted early listener member hears.2
            · exact .inr ⟨socket, .inr (accounted.owned.made top (first ▸ List.mem_cons_self) path node found birth).1⟩
          · exact stays ((lookup_unlink here).trans found)
      | close listener =>
        cases answered
        exact stays found
    · cases responds
  | takeUnixListener =>
    simp only [respond] at responds
    split at responds
    · split at responds <;> cases responds
      exact stays found
    all_goals
      cases responds
      exact stays found
  | _ =>
    cases responds
    exact stays found

/-- The file system stays sound with every operation, and the other processes are apart. -/
theorem respond_evolves {replies : Replies} {operation : Sockets.Operation} {answer : Sockets.Answer operation}
    (sound : host.Sound) (rooted : host.Rooted)
    (responds : respond uid index circumstances replies host operation = some (answer, next)) :
    next.Sound ∧ next.Rooted ∧ Evolves host next ∧ ∀ other, other ≠ index → Apart other host next := by
  cases operation with
  | host operation =>
    simp only [respond] at responds
    split at responds
    · rename_i chosen
      have answered := Option.some.inj responds
      exact ⟨sound.perform chosen answered, rooted.perform answered, .perform answered,
        fun other different => .perform (fun same => different (Option.some.inj same).symm) answered⟩
    · cases responds
  | takeUnixListener =>
    simp only [respond] at responds
    split at responds
    · split at responds
      · rename_i listener found
        cases responds
        have member := List.mem_of_find?_eq_some found
        have same := List.find?_some found
        simp only [Bool.and_eq_true, beq_iff_eq] at same
        refine ⟨?_, rooted, ?_, ?_⟩
        · exact sound.hold (same.2 ▸ sound.heard listener member) fun path node shown =>
            same.2 ▸ sound.known path node listener member shown
        · exact Evolves.rfl.hold fun _ => ⟨listener, member, same.2⟩
        · exact fun other different => Apart.rfl.hold fun same => different (Option.some.inj same).symm
      · cases responds
    all_goals
      cases responds
      exact ⟨sound, rooted, .rfl, fun _ _ => .rfl⟩
  | _ =>
    cases responds
    exact ⟨sound, rooted, .rfl, fun _ _ => .rfl⟩

/-- The file system stays sound whatever somebody else does, and all processes are apart. -/
theorem change_evolves {interference : Change} (sound : host.Sound) (rooted : host.Rooted)
    (changes : change host interference = some next) :
    next.Sound ∧ next.Rooted ∧ Evolves host next ∧ ∀ other, Apart other host next := by
  cases interference with
  | create path kind mode uid identity socket =>
    obtain ⟨⟨absent, unused, stands⟩, makes⟩ := Option.ite_none_right_eq_some.mp changes
    cases makes
    have roots : (host.make path kind mode uid identity none).Rooted :=
      rooted.make (.inr (State.named_of_parentStands stands))
    have apart (other : Nat) : Apart other host (host.make path kind mode uid identity none) :=
      Apart.rfl.make (Option.some_ne_none other).symm
    cases socket with
    | none => exact ⟨sound.make absent (unused_iff.mp unused).2, roots, Evolves.rfl.make, apart⟩
    | some accepting =>
      refine ⟨sound.bind absent unused none accepting, roots, ?_, ?_⟩
      · exact Evolves.rfl.make.hold fun impossible => absurd impossible (Nat.lt_irrefl _)
      · exact fun other => (apart other).hold (Option.some_ne_none other).symm
  | listen birth =>
    cases changes
    exact ⟨sound.listen none birth, rooted, Evolves.rfl.listen none birth,
      fun other => Apart.rfl.listen (Option.some_ne_none other).symm birth⟩
  | protect path mode =>
    obtain ⟨node, found, rfl⟩ := Option.map_eq_some_iff.mp changes
    exact ⟨sound.change found mode, rooted.change found, Evolves.rfl.change found (same_change node mode),
      fun _ => Apart.rfl.change found (same_change node mode)⟩
  | unlink path =>
    cases changes
    exact ⟨sound.unlink path, rooted.unlink path, Evolves.rfl.unlink path, fun _ => Apart.rfl.unlink path⟩
  | move source target =>
    obtain ⟨stands, moves⟩ := Option.ite_none_right_eq_some.mp changes
    obtain ⟨node, found, rfl⟩ := Option.map_eq_some_iff.mp moves
    exact ⟨sound.move found, rooted.move (State.named_of_parentStands stands), Evolves.rfl.move found,
      fun _ => Apart.rfl.move found⟩
  | shut birth =>
    cases changes
    exact ⟨sound.shut none birth, rooted, Evolves.rfl.shut none birth,
      fun other => Apart.rfl.shut (Option.some_ne_none other).symm birth⟩

/-- A gentle change spares the sockets that some process has open. -/
theorem gentle_spares {interference : Change} {processes : List Process}
    (gentle : Gentle ⟨host, processes⟩ (.interfere interference))
    (changes : change host interference = some next) : Spares prompt index host next := by
  intro path node found _ _ listened
  have untouched : path ∉ changed interference := by
    intro member
    obtain ⟨listener, among, holder, birth⟩ := listened
    have silent := List.all_eq_true.mp gentle path member
    simp only [found, Option.all_some, List.all_eq_true] at silent
    have only := silent listener among
    rw [birth, holder] at only
    simp at only
  refine .inl ?_
  cases interference with
  | create _ kind mode uid identity socket =>
    obtain ⟨⟨absent, _⟩, makes⟩ := Option.ite_none_right_eq_some.mp changes
    cases makes
    cases socket <;> exact lookup_make_kept absent found
  | protect other mode =>
    obtain ⟨_, _, rfl⟩ := Option.map_eq_some_iff.mp changes
    exact (lookup_change (List.ne_of_not_mem_cons untouched)).trans found
  | unlink other =>
    cases changes
    exact (lookup_unlink (List.ne_of_not_mem_cons untouched)).trans found
  | move source target =>
    obtain ⟨_, moves⟩ := Option.ite_none_right_eq_some.mp changes
    obtain ⟨_, _, rfl⟩ := Option.map_eq_some_iff.mp moves
    have elsewhere := List.ne_of_not_mem_cons (List.not_mem_of_not_mem_cons untouched)
    exact (lookup_change elsewhere).trans ((lookup_unlink (List.ne_of_not_mem_cons untouched)).trans found)
  | listen _ | shut _ =>
    cases changes
    exact found

/-- What a process holds stands as long as the others spare it. -/
theorem Standing.apart (standing : Standing prompt index uid refused host phase) (owned : Owned index host phase)
    (sound : host.Sound) (evolves : Evolves host next) (apart : Apart index host next)
    (spares : Spares prompt index host next) : Standing prompt index uid refused next phase := by
  refine standing.evolves owned sound evolves ?_ ?_
  · rintro held member _ ⟨node, found, birth, mode⟩
    obtain ⟨kind, maker, identity, listens⟩ := held_node owned member found birth
    rcases spares held.path node found kind maker ⟨_, listens, rfl, rfl⟩ with stays | ⟨late, gone⟩
    · exact .inl ⟨node, stays, birth, mode⟩
    · exact .inr ⟨late, birth ▸ gone⟩
  · intro smooth path node found maker kind
    obtain ⟨place, earlier, before, birth, sameKind, made⟩ := apart.makers path node found maker
    rw [← birth]
    exact standing.left smooth place earlier before made (sameKind.trans kind)

/-! ## Runs -/

/-- Nobody is yet a process with this number. -/
def Unborn (host : Host.State) (index : Nat) : Prop :=
  (∀ listener ∈ host.listeners, listener.holder ≠ some index) ∧
    ∀ path node, host.nodes.lookup path = some node → node.maker ≠ some index

/-- A process that does not exist yet is left alone. -/
theorem Unborn.apart (unborn : Unborn host index) (apart : Apart index host next) : Unborn next index := by
  refine ⟨fun listener member holds => ?_, fun path node found made => ?_⟩
  · exact unborn.1 listener ((apart.listeners listener holds).mp member) holds
  · obtain ⟨place, earlier, before, _, _, same⟩ := apart.makers path node found made
    exact unborn.2 place earlier before same

/-- What is true of a process. The last part supposes that everybody is gentle. -/
def Account (prompt gentle : Prop) (host : Host.State) (index : Nat) (process : Process) : Prop :=
  if process.alive then
    ∃ phase, Program.Complies monitor phase process.program Started ∧ Accounted prompt index host process.seen phase ∧
      (gentle → Standing prompt index process.uid process.refused host phase)
  else ∀ listener ∈ host.listeners, listener.holder ≠ some index

/-- What is true of every state that allowed steps reach. -/
structure Invariant (prompt gentle : Prop) (state : Startup.State) : Prop where
  sound : state.host.Sound
  rooted : state.host.Rooted
  accounts : ∀ index process, state.processes[index]? = some process →
    Account prompt gentle state.host index process
  unborn : ∀ index, state.processes.length ≤ index → Unborn state.host index

/-- What others do leaves true what is true of a process. -/
theorem Account.apart {gentle : Prop} {process : Process} (account : Account prompt gentle host index process)
    (sound : host.Sound) (evolves : Evolves host next) (apart : Apart index host next)
    (spares : gentle → Spares prompt index host next) : Account prompt gentle next index process := by
  unfold Account at account ⊢
  split at account
  · rename_i alive
    rw [if_pos alive]
    obtain ⟨phase, complies, accounted, stands⟩ := account
    refine ⟨phase, complies, accounted.apart sound evolves apart, fun gentle => ?_⟩
    exact (stands gentle).apart accounted.owned sound evolves apart (spares gentle)
  · rename_i dead
    rw [if_neg dead]
    intro listener member holds
    exact account listener ((apart.listeners listener holds).mp member) holds

/-- A process that starts holds nothing. -/
theorem account_start {gentle : Prop} {environment : Environment} (unborn : Unborn host index) :
    Account prompt gentle host index ⟨uid, (start uid environment).run, true, none, false⟩ := by
  refine ⟨.initial, start_complies uid environment, ⟨⟨nofun, nofun, ?_, List.nodup_nil⟩, trivial⟩,
    fun _ => ⟨nofun, ?_, nofun⟩⟩
  · exact fun listener member holds => absurd holds (unborn.1 listener member)
  · exact fun _ path node found made => absurd made (unborn.2 path node found)

/-- The steps that are allowed. -/
def Allowed (prompt gentle : Prop) (state : Startup.State) (action : Startup.Action) : Prop :=
  Steady state action ∧ (prompt → Prompt state action) ∧ (gentle → Gentle state action)

/-- One process has changed, and with it the file system. -/
theorem Invariant.set {gentle : Prop} {state : Startup.State} {process changed : Process}
    (invariant : Invariant prompt gentle state) (there : state.processes[index]? = some process)
    (sound : next.Sound) (rooted : next.Rooted) (evolves : Evolves state.host next)
    (apart : ∀ other, other ≠ index → Apart other state.host next)
    (spares : ∀ other, other ≠ index → Spares prompt other state.host next)
    (account : Account prompt gentle next index changed) :
    Invariant prompt gentle ⟨next, state.processes.set index changed⟩ := by
  obtain ⟨inside, _⟩ := List.getElem?_eq_some_iff.mp there
  refine ⟨sound, rooted, fun other process found => ?_, fun other beyond => ?_⟩
  · by_cases same : other = index
    · subst same
      rw [List.getElem?_set_self inside] at found
      cases found
      exact account
    · rw [List.getElem?_set_ne (Ne.symm same)] at found
      exact (invariant.accounts other process found).apart invariant.sound evolves (apart other same)
        fun _ => spares other same
  · rw [List.length_set] at beyond
    exact (invariant.unborn other beyond).apart (apart other (by omega))

instance (prompt gentle : Prop) [Decidable prompt] [Decidable gentle] (state : Startup.State)
    (action : Startup.Action) : Decidable (Allowed prompt gentle state action) := inferInstanceAs (Decidable (_ ∧ _))

/-- An allowed step keeps the invariant. -/
theorem Invariant.step {gentle : Prop} {state after : Startup.State} {action : Startup.Action}
    (invariant : Invariant prompt gentle state) (allowed : Allowed prompt gentle state action)
    (taken : Startup.step state action = some after) : Invariant prompt gentle after := by
  obtain ⟨sound, rooted, accounts, unborn⟩ := invariant
  cases action with
  | launch uid environment =>
    cases taken
    refine ⟨sound, rooted, fun index process found => ?_, fun index beyond => ?_⟩
    · rcases Nat.lt_trichotomy index state.processes.length with before | rfl | beyond
      · rw [List.getElem?_append_left before] at found
        exact accounts index process found
      · rw [List.getElem?_concat_length] at found
        cases found
        exact account_start (unborn _ (Nat.le_refl _))
      · rw [List.getElem?_eq_none (by rw [List.length_append]; exact beyond)] at found
        cases found
    · rw [List.length_append] at beyond
      exact unborn index (Nat.le_of_succ_le beyond)
  | proceed index circumstances replies =>
    simp only [Startup.step] at taken
    split at taken
    · rename_i uid operation rest seen refused there
      obtain ⟨⟨answer, next⟩, responds, rfl⟩ := Option.map_eq_some_iff.mp taken
      obtain ⟨steps, prompts, _⟩ := allowed
      simp only [Steady, Prompt, there, Bool.and_eq_true] at steps prompts
      obtain ⟨steady, reaches⟩ := steps
      obtain ⟨phase, complies, accounted, stands⟩ := accounts index _ there
      obtain ⟨reached, advanced, continues⟩ := complies answer
      obtain ⟨soundNext, rootedNext, evolves, apart⟩ := respond_evolves sound rooted responds
      exact Invariant.set ⟨sound, rooted, accounts, unborn⟩ there soundNext rootedNext evolves apart
        (fun other different => respond_spares different sound rooted accounted steady responds advanced)
        ⟨reached, continues, respond_accounted sound accounted steady reaches prompts responds advanced,
          fun gentle => respond_standing sound rooted accounted (stands gentle) steady responds advanced⟩
    · cases taken
  | die index =>
    simp only [Startup.step] at taken
    split at taken
    · rename_i process there
      split at taken
      · cases taken
        refine Invariant.set ⟨sound, rooted, accounts, unborn⟩ there (sound.leave _) rooted (Evolves.rfl.leave _)
          (fun other different => Apart.rfl.leave fun same => different (Option.some.inj same).symm)
          (fun _ _ => spares_of_nodes rfl) ?_
        intro listener member holds
        exact bne_iff_ne.mp (List.mem_filter.mp member).2 holds
      · cases taken
    · cases taken
  | interfere interference =>
    obtain ⟨next, changes, rfl⟩ := Option.map_eq_some_iff.mp taken
    obtain ⟨soundNext, rootedNext, evolves, apart⟩ := change_evolves sound rooted changes
    refine ⟨soundNext, rootedNext, fun index process found => ?_,
      fun index beyond => (unborn index beyond).apart (apart index)⟩
    exact (accounts index process found).apart sound evolves (apart index) fun gentle =>
      gentle_spares (allowed.2.2 gentle) changes

/-- The invariant holds before the first step. -/
theorem invariant_initial (prompt gentle : Prop) : Invariant prompt gentle .initial := by
  have empty : (State.mk ∅ [] 0).Sound := by
    constructor
    · intro path node found
      cases found
    · exact nofun
    · intro left _ _ _ found
      cases found
    · exact nofun
  have only (path : Path) (node : Node) (found : Startup.State.initial.host.nodes.lookup path = some node) :
      node.kind = .directory ∧ node.maker = none := by
    by_cases root : path = ⟨true, []⟩
    · subst root
      cases lookup_make_self.symm.trans found
      exact ⟨rfl, rfl⟩
    · cases (lookup_make root).symm.trans found
  refine ⟨empty.make rfl nofun, fun path node found _ => (only path node found).1,
    fun _ _ impossible => ?_, fun index _ => ?_⟩
  · cases impossible
  · refine ⟨nofun, fun path node found => ?_⟩
    rw [(only path node found).2]
    exact (Option.some_ne_none index).symm

/-- What is true in every state of a run whose steps are allowed. -/
theorem invariant_of_run {gentle : Prop} {state : Startup.State} {actions : List Startup.Action}
    (allowed : Transition.Along Startup.step (Allowed prompt gentle) .initial actions)
    (reached : Transition.run Startup.step .initial actions = some state) : Invariant prompt gentle state :=
  Transition.invariant_along (fun _ _ _ invariant allowed taken => invariant.step allowed taken)
    (invariant_initial prompt gentle) allowed reached

/-! ## What startups leave alone -/

/-- A home directory and a directory for sockets. -/
def sampleEnvironment : Environment := fun name =>
  if name = "XDG_RUNTIME_DIR" then some (utf8 "/run") else if name = "HOME" then some (utf8 "/home") else none

/-- Where the agent of this environment is reached. -/
def agentSocket : Path := Path.parse (utf8 "/run/keyvisor/agent.sock")

/-- The next operation of a process, with nothing in its way. -/
def calm (index : Nat) : Startup.Action :=
  .proceed index ⟨none, 0, fun path => ⟨index + 1, (path.names.getLastD []).length⟩, 0o755⟩
    ⟨0, .ok none, .ok none, .ok {}, .ok ()⟩

/-- The directories of the sockets. -/
def prepared : List Startup.Action :=
  [.interfere (.create (Path.parse (utf8 "/run")) .directory 0o700 1000 ⟨0, 1⟩ none),
    .interfere (.create (Path.parse (utf8 "/run/keyvisor")) .directory 0o700 1000 ⟨0, 2⟩ none)]

/-- An agent that crashed has left its socket. -/
def crashed : List Startup.Action := prepared ++ [.interfere (.create agentSocket .socket 0o600 1000 ⟨0, 3⟩ none)]

/-- In a steady run in which no startup connects to a socket between its binding and its
listening, a startup takes away nothing but sockets that nobody listens on and sockets that
it bound itself. Between its look and its removal the path keeps its node, so a socket that
was seen deserted is still deserted: nobody had it open to listen on it later. And as long
as it has a socket open, no other node has the identity by which it recognises it. -/
theorem startups_remove_deserted_sockets {state after : Startup.State} {actions : List Startup.Action} {index : Nat}
    {circumstances : Circumstances} {replies : Replies} {path : Path} {node : Node}
    (allowed : Transition.Along Startup.step (Allowed True False) .initial actions)
    (reached : Transition.run Startup.step .initial actions = some state)
    (still : Steady state (.proceed index circumstances replies))
    (taken : Startup.step state (.proceed index circumstances replies) = some after)
    (found : state.host.nodes.lookup path = some node) :
    (∃ same, after.host.nodes.lookup path = some same ∧ same.birth = node.birth) ∨
      (node.kind = .socket ∧ (state.host.live node = false ∨ node.maker = some index)) := by
  have invariant := invariant_of_run allowed reached
  simp only [Startup.step] at taken
  split at taken
  · rename_i uid operation rest seen refused there
    obtain ⟨⟨answer, next⟩, responds, rfl⟩ := Option.map_eq_some_iff.mp taken
    simp only [Steady, there, Bool.and_eq_true] at still
    obtain ⟨phase, complies, accounted, _⟩ := invariant.accounts index _ there
    obtain ⟨_, advanced, _⟩ := complies answer
    exact respond_removes trivial accounted still.1 responds advanced found
  · cases taken

/-- A startup that finds the socket of a crashed agent removes it. -/
theorem startups_remove_deserted_sockets_crashed : ∃ state after node,
    Transition.run Startup.step .initial (crashed ++ .launch 1000 sampleEnvironment :: List.replicate 6 (calm 0)) =
      some state ∧
      Startup.step state (calm 0) = some after ∧ state.host.nodes.lookup agentSocket = some node ∧
      after.host.nodes.lookup agentSocket = none ∧ (state.host.live node = false ∨ node.maker = some 0) := by
  have ends : ((Transition.run Startup.step .initial
      (crashed ++ .launch 1000 sampleEnvironment :: List.replicate 6 (calm 0))).any fun state =>
        decide (Steady state (calm 0)) && (state.host.nodes.lookup agentSocket).isSome &&
          (Startup.step state (calm 0)).any fun after => (after.host.nodes.lookup agentSocket).isNone) = true := by
    decide +kernel
  obtain ⟨state, reached, ends⟩ := (Option.any_eq_true _ _).mp ends
  simp only [Bool.and_eq_true, decide_eq_true_eq] at ends
  obtain ⟨⟨still, present⟩, ends⟩ := ends
  obtain ⟨node, found⟩ := Option.isSome_iff_exists.mp present
  obtain ⟨after, taken, gone⟩ := (Option.any_eq_true _ _).mp ends
  have absent := Option.isNone_iff_eq_none.mp gone
  refine ⟨state, after, node, reached, taken, found, absent, ?_⟩
  rcases startups_remove_deserted_sockets (by decide +kernel) reached still taken found with ⟨_, stays, _⟩ | removed
  · rw [absent] at stays
    cases stays
  · exact removed.2

/-- Without steadiness it does not hold: two startups see the same deserted socket, one
replaces it by its own, and the other one removes that. -/
theorem unsteady_startups_remove_live_sockets : ∃ actions state after node,
    Transition.run Startup.step .initial actions = some state ∧ Startup.step state (calm 1) = some after ∧
      state.host.nodes.lookup agentSocket = some node ∧ after.host.nodes.lookup agentSocket = none ∧
      state.host.live node = true ∧ node.maker = some 0 := by
  have ends : ((Transition.run Startup.step .initial (crashed ++
      [.launch 1000 sampleEnvironment, .launch 1000 sampleEnvironment] ++ List.replicate 6 (calm 0) ++
        List.replicate 6 (calm 1) ++ List.replicate 4 (calm 0))).any fun state =>
      (state.host.nodes.lookup agentSocket).any (fun node => state.host.live node && node.maker == some 0) &&
        (Startup.step state (calm 1)).any fun after => (after.host.nodes.lookup agentSocket).isNone) = true := by
    decide +kernel
  obtain ⟨state, reached, ends⟩ := (Option.any_eq_true _ _).mp ends
  obtain ⟨present, ends⟩ := Bool.and_eq_true_iff.mp ends
  obtain ⟨node, found, lives⟩ := (Option.any_eq_true _ _).mp present
  obtain ⟨after, taken, gone⟩ := (Option.any_eq_true _ _).mp ends
  obtain ⟨live, made⟩ := Bool.and_eq_true_iff.mp lives
  exact ⟨_, state, after, node, reached, taken, found, Option.isNone_iff_eq_none.mp gone, live, beq_iff_eq.mp made⟩

/-- The sockets that an agent serves on and guards. -/
def servedSockets (serving : Serving) : List (Nat × SocketGuard) :=
  (serving.controlListener, serving.controlGuard) :: serving.guard.toList.map fun guard => (serving.listener, guard)

/-- The agent that a process has become. -/
def serves (process : Process) : Option Serving :=
  match process.alive, process.program with
  | true, .done (.ok serving) => some serving
  | _, _ => none

/-- The failure that a process has ended with. -/
def fails (process : Process) : Option String :=
  match process.alive, process.program with
  | true, .done (.error error) => some error
  | _, _ => none

/-- A process that failed has ended. -/
theorem fails_eq_some {process : Process} {error : String} (failed : fails process = some error) :
    process.alive = true ∧ process.program = .done (.error error) := by
  unfold fails at failed
  split at failed
  · rename_i alive ended
    cases failed
    exact ⟨alive, ended⟩
  · cases failed

/-- A process that serves has ended its startup. -/
theorem serves_eq_some {process : Process} {serving : Serving} (serving' : serves process = some serving) :
    process.alive = true ∧ process.program = .done (.ok serving) := by
  unfold serves at serving'
  split at serving'
  · rename_i alive ended
    cases serving'
    exact ⟨alive, ended⟩
  · cases serving'

/-- What an agent serves on and guards is held. -/
theorem held_of_started {serving : Serving} {listener : Nat} {guard : SocketGuard}
    (started : Started reached (.ok serving)) (member : (listener, guard) ∈ servedSockets serving) :
    Held.guarded listener guard ∈ reached.held := by
  obtain ⟨own, owns, held, _⟩ := started
  rw [held]
  rcases List.mem_cons.mp member with same | member
  · cases same
    exact List.mem_cons_self
  · obtain ⟨given, among, same⟩ := List.mem_map.mp member
    cases same
    rw [Option.mem_toList.mp among] at owns
    rw [owns.1]
    exact List.mem_cons_of_mem _ List.mem_cons_self

/-- A socket that an agent serves on stands at its path. -/
def Served (host : Host.State) (index uid : Nat) (listener : Nat) (guard : SocketGuard) : Prop :=
  ∃ node, host.nodes.lookup guard.path = some node ∧ node.birth = listener ∧ node.maker = some index ∧
    node.identity = guard.identity ∧ host.live node = true ∧ checkControlSocket uid node.metadata = .ok ()

/-- A listed socket that has its guard, listens and is the user's only is served on. -/
theorem served_of_standing {listener : Nat} {guard : SocketGuard} (early : prompt) (sound : host.Sound)
    (owned : Owned index host phase) (standing : Standing prompt index uid refused host phase)
    (member : Held.guarded listener guard ∈ phase.held) : Served host index uid listener guard := by
  obtain ⟨node, found, birth, mine, mode⟩ | ⟨late, _⟩ := standing.listed _ member rfl
  rotate_left
  · exact absurd early late
  obtain ⟨kind, maker, _⟩ := held_node owned member found birth
  obtain ⟨identity, listens, guards⟩ := owned.listening _ member
  refine ⟨node, found, birth, maker, ?_, ?_, ?_⟩
  · rw [(sound.known guard.path node _ listens found).mpr birth]
    exact (guards guard.identity rfl).symm
  · rw [State.live, kind, Bool.and_eq_true]
    exact ⟨rfl, List.any_eq_true.mpr ⟨_, listens, Bool.and_eq_true_iff.mpr ⟨rfl, beq_iff_eq.mpr birth.symm⟩⟩⟩
  · have permissions : node.metadata.mode &&& 0o777 = 0o600 := by
      rw [show node.metadata.mode = 0o600 from mode rfl]
      rfl
    unfold checkControlSocket
    rw [if_neg (not_not.mpr (show node.metadata.kind = .socket from kind)), if_neg]
    rintro (other | other)
    · exact other permissions
    · exact other mine

/-- When besides nobody else touches the sockets of startups, every agent that serves has
the sockets it guards at their paths: it made them, it listens on them, they are the user's
own with mode 0600, so that the user's command-line tool accepts them. Two agents never
serve on one path. -/
theorem serving_agents_keep_their_sockets {state : Startup.State} {actions : List Startup.Action} {index : Nat}
    {process : Process} {serving : Serving}
    (allowed : Transition.Along Startup.step (Allowed True True) .initial actions)
    (reached : Transition.run Startup.step .initial actions = some state)
    (there : state.processes[index]? = some process) (serving' : serves process = some serving) :
    (∀ listener guard, (listener, guard) ∈ servedSockets serving →
      Served state.host index process.uid listener guard) ∧
    ∀ other another agent, other ≠ index → state.processes[other]? = some another → serves another = some agent →
      ∀ left right, left ∈ servedSockets serving → right ∈ servedSockets agent → left.2.path ≠ right.2.path := by
  have invariant := invariant_of_run allowed reached
  have stands {index : Nat} {process : Process} {serving : Serving} (there : state.processes[index]? = some process)
      (becomes : serves process = some serving) (listener : Nat) (guard : SocketGuard)
      (member : (listener, guard) ∈ servedSockets serving) : Served state.host index process.uid listener guard := by
    obtain ⟨alive, ended⟩ := serves_eq_some becomes
    have account := invariant.accounts index process there
    rw [Account, if_pos alive] at account
    obtain ⟨phase, complies, accounted, standing⟩ := account
    rw [ended] at complies
    exact served_of_standing trivial invariant.sound accounted.owned (standing trivial)
      (held_of_started complies member)
  refine ⟨stands there serving', ?_⟩
  intro other another agent different found becomes left right inLeft inRight same
  obtain ⟨node, atLeft, _, made, _⟩ := stands there serving' left.1 left.2 inLeft
  obtain ⟨_, atRight, _, madeToo, _⟩ := stands found becomes right.1 right.2 inRight
  rw [← same, atLeft] at atRight
  cases atRight
  exact different (Option.some.inj (madeToo.symm.trans made))

/-- An agent that starts on an empty runtime directory. -/
def firstStart : List Startup.Action :=
  [.interfere (.create (Path.parse (utf8 "/run")) .directory 0o700 1000 ⟨0, 1⟩ none),
    .launch 1000 sampleEnvironment] ++ List.replicate 16 (calm 0)

/-- An agent that starts alone serves on its control socket. -/
theorem serving_agents_keep_their_sockets_first : ∃ state process serving,
    Transition.run Startup.step .initial firstStart = some state ∧ state.processes[0]? = some process ∧
      serves process = some serving ∧
      Served state.host 0 process.uid serving.controlListener serving.controlGuard := by
  have ends : ((Transition.run Startup.step .initial firstStart).any fun state =>
      state.processes[0]?.any fun process => (serves process).isSome) = true := by decide +kernel
  obtain ⟨state, reached, present⟩ := (Option.any_eq_true _ _).mp ends
  obtain ⟨process, there, becomes⟩ := (Option.any_eq_true _ _).mp present
  obtain ⟨serving, becomes⟩ := Option.isSome_iff_exists.mp becomes
  refine ⟨state, process, serving, reached, there, becomes, ?_⟩
  exact (serving_agents_keep_their_sockets (by decide +kernel) reached there becomes).1 _ _ List.mem_cons_self

/-- A startup that is hasty: it connects to a socket before that is listened on, and removes
it when an agent serves on it already. -/
def hastyStart : List Startup.Action :=
  prepared ++ [.launch 1000 sampleEnvironment, .launch 1000 sampleEnvironment] ++ List.replicate 4 (calm 0) ++
    List.replicate 6 (calm 1) ++ List.replicate 10 (calm 0)

/-- Without promptness neither holds, although no path changes between two operations on it
and nobody else touches anything. -/
theorem hasty_startups_remove_served_sockets : ∃ state after node,
    Transition.Along Startup.step (Allowed False True) .initial hastyStart ∧
      Transition.run Startup.step .initial hastyStart = some state ∧ Allowed False True state (calm 1) ∧
      Startup.step state (calm 1) = some after ∧ (state.processes[0]?.bind serves).isSome ∧
      state.host.nodes.lookup agentSocket = some node ∧ after.host.nodes.lookup agentSocket = none ∧
      state.host.live node = true ∧ node.maker = some 0 := by
  have ends : ((Transition.run Startup.step .initial hastyStart).any fun state =>
      (decide (Allowed False True state (calm 1)) && (state.processes[0]?.bind serves).isSome) &&
        ((state.host.nodes.lookup agentSocket).any (fun node => state.host.live node && node.maker == some 0) &&
          (Startup.step state (calm 1)).any fun after => (after.host.nodes.lookup agentSocket).isNone)) = true := by
    decide +kernel
  obtain ⟨state, reached, ends⟩ := (Option.any_eq_true _ _).mp ends
  simp only [Bool.and_eq_true, decide_eq_true_eq] at ends
  obtain ⟨⟨allowed, serving⟩, present, ends⟩ := ends
  obtain ⟨node, found, lives⟩ := (Option.any_eq_true _ _).mp present
  obtain ⟨after, taken, gone⟩ := (Option.any_eq_true _ _).mp ends
  obtain ⟨live, made⟩ := Bool.and_eq_true_iff.mp lives
  exact ⟨state, after, node, by decide +kernel, reached, allowed, taken, serving, found,
    Option.isNone_iff_eq_none.mp gone, live, beq_iff_eq.mp made⟩

/-- In a steady run in which nobody else touches the sockets of startups, a startup that
failed listens on nothing, and no socket that it made is left unless some operation of it
was refused. Its sockets may have been taken for deserted too early: then they are gone. -/
theorem failed_startups_leave_nothing {state : Startup.State} {actions : List Startup.Action} {index : Nat}
    {process : Process} {error : String}
    (allowed : Transition.Along Startup.step (Allowed False True) .initial actions)
    (reached : Transition.run Startup.step .initial actions = some state)
    (there : state.processes[index]? = some process) (failed : fails process = some error) :
    (∀ listener ∈ state.host.listeners, listener.holder ≠ some index) ∧
      (process.refused = false → ∀ path node, state.host.nodes.lookup path = some node →
        node.maker = some index → node.kind ≠ .socket) := by
  obtain ⟨alive, ended⟩ := fails_eq_some failed
  have account := (invariant_of_run allowed reached).accounts index process there
  rw [Account, if_pos alive] at account
  obtain ⟨phase, complies, accounted, standing⟩ := account
  rw [ended] at complies
  obtain ⟨held, taken⟩ : Empty phase := complies
  refine ⟨fun listener member holds => ?_, fun smooth path node found made kind => ?_⟩
  · rcases accounted.owned.accounted listener member holds with ⟨_, among, _⟩ | given
    · rw [held] at among
      cases among
    · rw [taken] at given
      cases given
  · obtain ⟨_, among, _⟩ := (standing trivial).left smooth path node found made kind
    rw [held] at among
    cases among

/-- A second startup finds the first agent running. -/
theorem failed_startups_leave_nothing_second : ∃ state process error,
    Transition.run Startup.step .initial (firstStart ++ .launch 1000 sampleEnvironment :: List.replicate 6 (calm 1)) =
      some state ∧ state.processes[1]? = some process ∧ fails process = some error ∧
      ∀ path node, state.host.nodes.lookup path = some node → node.maker = some 1 → node.kind ≠ .socket := by
  have ends : ((Transition.run Startup.step .initial
      (firstStart ++ .launch 1000 sampleEnvironment :: List.replicate 6 (calm 1))).any fun state =>
        state.processes[1]?.any fun process => (fails process).isSome && !process.refused) = true := by decide +kernel
  obtain ⟨state, reached, present⟩ := (Option.any_eq_true _ _).mp ends
  obtain ⟨process, there, ended⟩ := (Option.any_eq_true _ _).mp present
  obtain ⟨failed, smooth⟩ := Bool.and_eq_true_iff.mp ended
  obtain ⟨error, failed⟩ := Option.isSome_iff_exists.mp failed
  refine ⟨state, process, error, reached, there, failed, ?_⟩
  exact (failed_startups_leave_nothing (by decide +kernel) reached there failed).2 (Bool.not_eq_true' _ |>.mp smooth)

end

end Keyvisor.Coexistence
