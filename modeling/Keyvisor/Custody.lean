import Keyvisor.Foundation.Monitor
import Keyvisor.Sockets

/-!
# What a startup may do to the sockets it finds

A monitor of the startup. It keeps an account of the sockets that the startup bound, the
last one first, and of what the last operation showed of a path. A socket may be removed
only after it was seen to be deserted or recognised as one's own, permissions are set only
on what was just made, and a socket of one's own stays listed when it is closed only if the
last operation about it had failed.
-/

namespace Keyvisor.Custody

open Foundation Foundation.Host Sockets Locations

/-- A socket that the startup bound: whether it is still to be removed, whether it listens
and whether it is the user's only. -/
structure Held where
  path : Path
  birth : Nat
  guard : Option Identity
  listed : Bool
  accepting : Bool
  restricted : Bool
  deriving DecidableEq, Repr

/-- What the last operation showed. -/
inductive Look where
  | nothing
  | occupied (path : Path)
  | standing (path : Path)
  | deserted (path : Path)
  | cleared
  | bound
  | own
  | forsaken
  | made (path : Path)
  deriving DecidableEq, Repr

/-- The account: the sockets, the listener that was given, and the last look. -/
structure Phase where
  held : List Held
  taken : Option Nat
  look : Look
  deriving DecidableEq, Repr

namespace Phase

/-- Nothing is held before the first operation. -/
def initial : Phase := ⟨[], none, .nothing⟩

/-- The rest of the account stays. -/
def see (phase : Phase) (look : Look) : Phase := { phase with look := look }

/-- What is inspected is the socket bound last. It is forsaken when it is not shown. -/
def recognise (phase : Phase) (path : Path) (outcome : Except IoError Metadata) : Phase :=
  match phase.held with
  | [] => phase.see .nothing
  | top :: _ =>
    if top.path = path ∧ top.listed then
      match top.guard, outcome with
      | some guard, .ok metadata => phase.see (if metadata.identity = guard then .own else .forsaken)
      | some _, .error _ => phase.see .forsaken
      | none, _ => phase.see .nothing
    else phase.see .nothing

/-- The identity of the socket bound last is learned. -/
def learn (phase : Phase) (path : Path) (outcome : Except IoError Metadata) : Option Phase :=
  match phase.held with
  | [] => none
  | top :: rest =>
    if top.path = path then
      match outcome with
      | .ok metadata => some { phase with
          held := { top with guard := some metadata.identity } :: rest, look := .nothing }
      | .error _ => some (phase.see .forsaken)
    else none

/-- What an inspection means depends on what was shown before. -/
def inspected (phase : Phase) (path : Path) (outcome : Except IoError Metadata) : Option Phase :=
  match phase.look with
  | .occupied shown =>
    if shown = path then
      match outcome with
      | .ok metadata => some (phase.see (if metadata.kind = .socket then .standing path else .nothing))
      | .error _ => some (phase.see .nothing)
    else none
  | .bound => phase.learn path outcome
  | _ => some (phase.recognise path outcome)

/-- Permissions are set on a directory that was made or on the socket bound last. -/
def restrict (phase : Phase) (path : Path) (mode : Nat) (outcome : Except IoError Unit) : Option Phase :=
  match phase.look, phase.held, outcome with
  | .made shown, _, _ => if shown = path then some (phase.see .nothing) else none
  | .bound, top :: rest, .ok _ =>
    if top.path = path then some { phase with held := { top with restricted := mode == 0o600 } :: rest } else none
  | .bound, top :: _, .error _ => if top.path = path then some (phase.see .forsaken) else none
  | _, _, _ => none

/-- A socket is bound, or its path is in use. -/
def bound (phase : Phase) (path : Path) : Except Refusal Nat → Phase
  | .ok birth => { phase with held := ⟨path, birth, none, true, false, false⟩ :: phase.held, look := .bound }
  | .error refusal =>
    if refusal.inUse ∧ phase.look ≠ .cleared then phase.see (.occupied path) else phase.see .nothing

/-- The socket bound last starts to listen. -/
def listened (phase : Phase) (birth : Nat) (outcome : Except IoError Unit) : Option Phase :=
  match phase.look, phase.held, outcome with
  | .bound, top :: rest, .ok _ =>
    if top.birth = birth then some { phase with held := { top with accepting := true } :: rest } else none
  | .bound, top :: _, .error _ => if top.birth = birth then some (phase.see .forsaken) else none
  | _, _, _ => none

/-- A socket that was seen standing is deserted when it refuses to connect. -/
def connected (phase : Phase) (path : Path) (outcome : Except IoError Unit) : Option Phase :=
  if phase.look = .standing path then
    some (phase.see (if outcome.isOk then .nothing else .deserted path))
  else none

/-- A deserted socket is removed, or the socket bound last once it is recognised. -/
def removed (phase : Phase) (path : Path) (outcome : Except IoError Unit) : Option Phase :=
  match phase.look, phase.held with
  | .deserted shown, _ =>
    if shown = path then some (phase.see (if outcome.isOk then .cleared else .nothing)) else none
  | .own, top :: rest =>
    if top.path = path ∧ top.listed then
      if outcome.isOk then some { phase with held := { top with listed := false } :: rest, look := .nothing }
      else some (phase.see .forsaken)
    else none
  | _, _ => none

/-- The socket bound last is closed, or the listener that was given. -/
def closed (phase : Phase) (birth : Nat) : Option Phase :=
  match phase.held with
  | top :: rest =>
    if top.birth = birth ∧ (top.listed → phase.look = .forsaken) then
      some { phase with held := rest, look := .nothing }
    else none
  | [] => if phase.taken = some birth then some { phase with taken := none, look := .nothing } else none

end Phase

/-- The account after an operation and its answer. -/
def advance (phase : Phase) : (operation : Sockets.Operation) → Sockets.Answer operation → Option Phase
  | .host (.inspect path), outcome => phase.inspected path outcome
  | .host (.createDirectories path), outcome =>
    some (phase.see (if Except.isOk (show Except IoError Unit from outcome) then .made path else .nothing))
  | .host (.setPermissions path mode), outcome => phase.restrict path mode outcome
  | .host (.bind path), outcome => some (phase.bound path outcome)
  | .host (.listen birth), outcome => phase.listened birth outcome
  | .host (.connect path), outcome => phase.connected path outcome
  | .host (.removeFile path), outcome => phase.removed path outcome
  | .host (.close birth), _ => phase.closed birth
  | .inheritedSockets, _ => some (phase.see .nothing)
  | .takeUnixListener, outcome =>
    match (show Except IoError (Option Nat) from outcome) with
    | .ok (some birth) =>
      if phase.held = [] ∧ phase.taken = none then some { phase with taken := some birth, look := .nothing } else none
    | _ => some (phase.see .nothing)
  | .localAddress _, _ => some (phase.see .nothing)
  | .loadConfiguration _, _ => some (phase.see .nothing)
  | .spawnControlService, _ => some (phase.see .nothing)

/-- The account as a monitor. -/
def monitor (phase : Phase) (exchange : Program.Exchange Sockets.Operation Sockets.Answer) : Option Phase :=
  advance phase exchange.1 exchange.2

/-- Nothing has been shown that the next inspection depends on. -/
def Look.settled : Look → Bool
  | .occupied _ => false
  | .bound => false
  | .cleared => false
  | _ => true

/-- Another account of the same sockets. -/
def Kept (phase reached : Phase) : Prop :=
  reached.held = phase.held ∧ reached.taken = phase.taken ∧ reached.look.settled = true

/-- An account that is kept twice is kept. -/
theorem Kept.trans {phase middle reached : Phase} (first : Kept phase middle) (second : Kept middle reached) :
    Kept phase reached := ⟨second.1.trans first.1, second.2.1.trans first.2.1, second.2.2⟩

section

variable {phase : Phase} {path : Path}

/-- A settled look keeps the account. -/
theorem kept_see {look : Look} (settled : look.settled = true) : Kept phase (phase.see look) := ⟨rfl, rfl, settled⟩

/-- Looking for the socket bound last keeps the account. -/
theorem kept_recognise (outcome : Except IoError Metadata) : Kept phase (phase.recognise path outcome) := by
  unfold Phase.recognise
  split
  · exact kept_see rfl
  · split
    · split
      · split <;> exact kept_see rfl
      · exact kept_see rfl
      · exact kept_see rfl
    · exact kept_see rfl

/-- After a settled look an inspection only looks for the socket bound last. -/
theorem inspected_settled (settled : phase.look.settled = true) (outcome : Except IoError Metadata) :
    phase.inspected path outcome = some (phase.recognise path outcome) := by
  unfold Phase.inspected
  cases shown : phase.look <;> simp_all [Look.settled]

/-- An inspection that nothing depends on. -/
theorem inspect_complies {post : Phase → Except IoError Metadata → Prop} (settled : phase.look.settled = true)
    (ends : ∀ outcome, post (phase.recognise path outcome) outcome) :
    Program.Complies monitor phase (inspect path) post :=
  Program.complies_call fun outcome => ⟨_, inspected_settled settled outcome, ends outcome⟩

/-- Directories may always be created. -/
theorem createDirectories_complies {post : Phase → Except IoError Unit → Prop}
    (ends : ∀ outcome : Except IoError Unit, post (phase.see (if outcome.isOk then .made path else .nothing)) outcome) :
    Program.Complies monitor phase (createDirectories path) post :=
  Program.complies_call fun outcome => ⟨_, rfl, ends outcome⟩

/-- Permissions may be set where the account allows it. -/
theorem setPermissions_complies {mode : Nat} {post : Phase → Except IoError Unit → Prop}
    (ends : ∀ outcome, ∃ reached, phase.restrict path mode outcome = some reached ∧ post reached outcome) :
    Program.Complies monitor phase (setPermissions path mode) post := Program.complies_call ends

/-- Sockets may always be bound. -/
theorem bind_complies {post : Phase → Except Refusal Nat → Prop}
    (ends : ∀ outcome, post (phase.bound path outcome) outcome) :
    Program.Complies monitor phase (bind path) post :=
  Program.complies_call fun outcome => ⟨_, rfl, ends outcome⟩

/-- A socket may listen where the account allows it. -/
theorem listen_complies {listener : Nat} {post : Phase → Except IoError Unit → Prop}
    (ends : ∀ outcome, ∃ reached, phase.listened listener outcome = some reached ∧ post reached outcome) :
    Program.Complies monitor phase (listen listener) post := Program.complies_call ends

/-- A socket may be connected to where the account allows it. -/
theorem connect_complies {post : Phase → Except IoError Unit → Prop}
    (ends : ∀ outcome, ∃ reached, phase.connected path outcome = some reached ∧ post reached outcome) :
    Program.Complies monitor phase (connect path) post := Program.complies_call ends

/-- A file may be removed where the account allows it. -/
theorem removeFile_complies {post : Phase → Except IoError Unit → Prop}
    (ends : ∀ outcome, ∃ reached, phase.removed path outcome = some reached ∧ post reached outcome) :
    Program.Complies monitor phase (removeFile path) post := Program.complies_call ends

/-- A listener may be closed where the account allows it. -/
theorem close_complies {listener : Nat} {reached : Phase} {post : Phase → Unit → Prop}
    (closes : phase.closed listener = some reached) (ends : post reached ()) :
    Program.Complies monitor phase (close listener) post := Program.complies_call fun _ => ⟨reached, closes, ends⟩

/-- Preparing a directory keeps the account. -/
theorem ensurePrivateDirectory_complies (settled : phase.look.settled = true) :
    Program.Complies monitor phase (ensurePrivateDirectory path).run fun reached _ => Kept phase reached := by
  refine Program.Complies.routine (Program.complies_observed (inspect_complies settled fun outcome => ?_))
  have kept : Kept phase (phase.recognise path outcome) := kept_recognise outcome
  refine Program.continues_ok ?_
  cases outcome with
  | ok metadata =>
    simp only [requirePrivate]
    split <;> exact kept
  | error error =>
    simp only [requirePrivate]
    split
    · refine Program.Complies.routine (Program.complies_demand (createDirectories_complies fun created => ?_))
      rcases created with error | _
      · exact kept.trans (kept_see rfl)
      refine Program.continues_ok (Program.complies_demand (setPermissions_complies fun _ => ⟨_, if_pos rfl, ?_⟩))
      exact kept.trans (kept_see rfl)
    · exact kept

/-- A release runs when the rest fails, and only then. -/
theorem releasing_complies {ε α : Type} {release : Action Unit} {rest : Routine ε α} {post : Phase → Except ε α → Prop}
    (complies : Program.Complies monitor phase rest.run fun reached outcome =>
      match outcome with
      | .ok value => post reached (.ok value)
      | .error error => Program.Complies monitor reached release fun final _ => post final (.error error)) :
    Program.Complies monitor phase (releasing release rest).run post := by
  refine Program.Complies.routine (Program.complies_observed (complies.weaken fun reached outcome ends => ?_))
  cases outcome with
  | ok value => exact ends
  | error error => exact Program.Complies.routine (Program.complies_observed ends)

/-! ## Binding -/

/-- The account of an earlier phase with one more socket. -/
def Holds (phase : Phase) (held : Held) (reached : Phase) : Prop :=
  reached.held = held :: phase.held ∧ reached.taken = phase.taken

/-- A listener is closed when its socket was removed or forsaken. -/
theorem closed_top {start : Phase} {held : Held} (holds : Holds start held phase)
    (excused : held.listed → phase.look = .forsaken) :
    ∃ reached, phase.closed held.birth = some reached ∧ Kept start reached := by
  refine ⟨{ phase with held := start.held, look := .nothing }, ?_, rfl, holds.2, rfl⟩
  simp only [Phase.closed, holds.1, true_and]
  exact if_pos excused

/-- A forsaken socket is closed. -/
theorem forsaken_complies {start : Phase} {held : Held} (holds : Holds start held phase) :
    Program.Complies monitor (phase.see .forsaken) (close held.birth) fun reached _ => Kept start reached := by
  have forsaken : Holds start held (phase.see .forsaken) := holds
  obtain ⟨reached, closes, kept⟩ := closed_top forsaken fun _ => rfl
  exact close_complies closes kept

/-- How a binding of the standard library ends. -/
def Opened (start : Phase) (path : Path) (reached : Phase) : Except Refusal Nat → Prop
  | .ok listener => Holds start ⟨path, listener, none, true, true, false⟩ reached ∧ reached.look = .bound
  | .error refusal => (reached.held = start.held ∧ reached.taken = start.taken) ∧
      if refusal.inUse ∧ start.look ≠ .cleared then reached.look = .occupied path else reached.look.settled = true

/-- A socket that was bound listens, or it is closed again. -/
theorem bindListener_complies : Program.Complies monitor phase (bindListener path) (Opened phase path) := by
  refine Program.Complies.bind (bind_complies fun outcome => ?_)
  cases outcome with
  | error refusal =>
    refine ⟨?_, ?_⟩ <;> simp only [Phase.bound]
    · split <;> exact ⟨rfl, rfl⟩
    · split <;> rfl
  | ok listener =>
    have holds : Holds phase ⟨path, listener, none, true, false, false⟩ (phase.bound path (.ok listener)) := ⟨rfl, rfl⟩
    refine Program.Complies.bind (listen_complies ?_)
    rintro (error | _)
    · refine ⟨(phase.bound path (.ok listener)).see .forsaken, if_pos rfl, ?_⟩
      refine Program.Complies.bind ((forsaken_complies holds).weaken fun reached _ kept => ?_)
      exact ⟨⟨kept.1, kept.2.1⟩, by simpa using kept.2.2⟩
    · exact ⟨{ phase with held := ⟨path, listener, none, true, true, false⟩ :: phase.held, look := .bound },
        if_pos rfl, ⟨rfl, rfl⟩, rfl⟩

/-- How a binding ends. -/
def Bound (start : Phase) (path : Path) (reached : Phase) : Except String Nat → Prop
  | .ok listener => Holds start ⟨path, listener, none, true, true, true⟩ reached ∧ reached.look = .bound
  | .error _ => Kept start reached

/-- A listener whose socket cannot be protected is closed. -/
theorem finishSocketBind_complies {listener : Nat} {start : Phase}
    (holds : Holds start ⟨path, listener, none, true, true, false⟩ phase) (bound : phase.look = .bound) :
    Program.Complies monitor phase (finishSocketBind path listener).run (Bound start path) := by
  refine releasing_complies (Program.Complies.routine (Program.complies_demand (setPermissions_complies ?_)))
  rintro (error | _)
  · refine ⟨phase.see .forsaken, ?_, forsaken_complies holds⟩
    simp only [Phase.restrict, bound, holds.1, ↓reduceIte]
  · refine ⟨{ phase with held := ⟨path, listener, none, true, true, true⟩ :: start.held }, ?_, ?_⟩
    · simp only [Phase.restrict, bound, holds.1, ↓reduceIte, BEq.rfl]
    · exact ⟨⟨rfl, holds.2⟩, bound⟩

/-- A stale socket is replaced only after it was seen deserted. -/
theorem replaceStale_complies {start : Phase} (kept : phase.held = start.held ∧ phase.taken = start.taken)
    (occupied : phase.look = .occupied path) :
    Program.Complies monitor phase (replaceStale path).run (Bound start path) := by
  have ends {look : Look} (settled : look.settled = true) : Kept start (phase.see look) :=
    ⟨kept.1, kept.2, settled⟩
  refine Program.Complies.routine (Program.complies_demand (Program.complies_call fun outcome => ?_))
  rcases (outcome : Except IoError Metadata) with error | metadata
  · refine ⟨phase.see .nothing, ?_, ends rfl⟩
    simp only [monitor, advance, Phase.inspected, occupied, ↓reduceIte]
  refine ⟨phase.see (if metadata.kind = .socket then .standing path else .nothing), ?_, ?_⟩
  · simp only [monitor, advance, Phase.inspected, occupied, ↓reduceIte]
  refine Program.continues_ok (Program.Complies.routine (Program.complies_check ?_))
  unfold requireSocket
  by_cases socket : metadata.kind = .socket
  · rw [if_neg (not_not.mpr socket), if_pos socket]
    refine Program.continues_ok (Program.Complies.routine (Program.complies_observed (connect_complies fun outcome =>
      ⟨(phase.see (.standing path)).see (if outcome.isOk then .nothing else .deserted path), if_pos rfl, ?_⟩)))
    refine Program.continues_ok (Program.Complies.routine (Program.complies_check ?_))
    unfold requireDeserted
    cases outcome with
    | ok _ => exact ends rfl
    | error error =>
      refine Program.continues_ok (Program.Complies.routine (Program.complies_demand (removeFile_complies fun outcome =>
        ⟨(phase.see (.deserted path)).see (if outcome.isOk then .cleared else .nothing), if_pos rfl, ?_⟩)))
      cases outcome with
      | error error => exact ends rfl
      | ok _ =>
        refine Program.continues_ok (Program.Complies.routine (Program.complies_demand
          (bindListener_complies.weaken fun reached outcome opened => ?_)))
        cases outcome with
        | error refusal =>
          obtain ⟨⟨held, taken⟩, looks⟩ := opened
          rw [if_neg fun both => both.2 rfl] at looks
          exact ⟨held.trans kept.1, taken.trans kept.2, looks⟩
        | ok listener =>
          obtain ⟨⟨held, taken⟩, bound⟩ := opened
          exact Program.continues_ok (finishSocketBind_complies
            ⟨held.trans (congrArg _ kept.1), taken.trans kept.2⟩ bound)
  · rw [if_pos socket, if_neg socket]
    exact ends rfl

/-- A socket is bound at a free path or in the place of a stale one. -/
theorem bindSocket_complies (settled : phase.look.settled = true) :
    Program.Complies monitor phase (bindSocket path).run (Bound phase path) := by
  have uncleared : phase.look ≠ .cleared := by
    intro cleared
    rw [cleared] at settled
    cases settled
  refine Program.Complies.routine (Program.complies_observed
    (bindListener_complies.weaken fun reached outcome opened => ?_))
  refine Program.continues_ok ?_
  cases outcome with
  | ok listener => exact finishSocketBind_complies opened.1 opened.2
  | error refusal =>
    obtain ⟨kept, looks⟩ := opened
    simp only [uncleared, ne_eq, not_false_eq_true, and_true] at looks
    dsimp only
    split at looks
    · rename_i inUse
      rw [if_pos inUse]
      exact replaceStale_complies kept looks
    · rename_i free
      rw [if_neg free]
      exact ⟨kept.1, kept.2, looks⟩

/-- How a binding with its guard ends. -/
def Guarded (start : Phase) (path : Path) (reached : Phase) : Except String (Nat × SocketGuard) → Prop
  | .ok (listener, guard) => guard.path = path ∧
      Holds start ⟨path, listener, some guard.identity, true, true, true⟩ reached ∧ reached.look.settled = true
  | .error _ => Kept start reached

/-- A listener comes with the identity of its socket, or it is closed. -/
theorem guarded_complies {kind : String} (settled : phase.look.settled = true) :
    Program.Complies monitor phase (guarded path kind).run (Guarded phase path) := by
  refine Program.Complies.routine ((bindSocket_complies settled).weaken fun reached outcome ends => ?_)
  cases outcome with
  | error error => exact ends
  | ok listener =>
    obtain ⟨holds, bound⟩ := ends
    refine Program.continues_ok (releasing_complies (Program.Complies.routine (Program.complies_demand
      (Program.complies_call fun outcome => ?_))))
    rcases (outcome : Except IoError Metadata) with error | metadata
    · refine ⟨reached.see .forsaken, ?_, forsaken_complies holds⟩
      simp only [monitor, advance, Phase.inspected, bound, Phase.learn, holds.1, ↓reduceIte]
    · refine ⟨{ reached with
        held := ⟨path, listener, some metadata.identity, true, true, true⟩ :: phase.held, look := .nothing }, ?_, ?_⟩
      · simp only [monitor, advance, Phase.inspected, bound, Phase.learn, holds.1, ↓reduceIte]
      · exact ⟨rfl, ⟨rfl, holds.2⟩, rfl⟩

/-- The same for the control socket, whose directory is prepared first. -/
theorem bindGuardedSocket_complies (settled : phase.look.settled = true) :
    Program.Complies monitor phase (bindGuardedSocket path).run fun reached outcome =>
      ∃ start : Phase, Kept phase start ∧ Guarded start path reached outcome := by
  refine Program.Complies.routine (Program.complies_check ?_)
  cases parent : path.parent with
  | none => exact ⟨phase, ⟨rfl, rfl, settled⟩, rfl, rfl, settled⟩
  | some parent =>
    refine Program.continues_ok (Program.Complies.routine (Program.complies_adapt
      ((ensurePrivateDirectory_complies settled).weaken fun start outcome kept => ?_)))
    cases outcome with
    | error error => exact ⟨start, kept, rfl, rfl, kept.2.2⟩
    | ok _ => exact Program.continues_ok ((guarded_complies kept.2.2).weaken fun _ _ ends => ⟨start, kept, ends⟩)

/-! ## Giving up -/

/-- A guard removes its socket, or the socket is forsaken. -/
theorem dropBound_complies {start : Phase} {listener : Nat} {guard : SocketGuard}
    (holds : Holds start ⟨guard.path, listener, some guard.identity, true, true, true⟩ phase)
    (settled : phase.look.settled = true) :
    Program.Complies monitor phase (dropBound listener (some guard)) fun reached _ => Kept start reached := by
  refine Program.Complies.bind (Program.Complies.bind (inspect_complies settled fun outcome => ?_))
  cases outcome with
  | error error =>
    have missed : phase.recognise guard.path (.error error) = phase.see .forsaken := by
      simp only [Phase.recognise, holds.1, and_self, ↓reduceIte]
    rw [missed]
    exact forsaken_complies holds
  | ok metadata =>
    have looked : phase.recognise guard.path (.ok metadata) =
        phase.see (if metadata.identity = guard.identity then .own else .forsaken) := by
      simp only [Phase.recognise, holds.1, and_self, ↓reduceIte]
    rw [looked]
    by_cases same : metadata.identity = guard.identity
    · simp only [same, ↓reduceIte]
      refine Program.Complies.bind (removeFile_complies ?_)
      rintro (error | _)
      · refine ⟨phase.see .forsaken, ?_, forsaken_complies holds⟩
        simp only [Phase.removed, Phase.see, holds.1, and_self, ↓reduceIte, Except.isOk, Except.toBool,
          Bool.false_eq_true]
      · refine ⟨{ phase with
          held := ⟨guard.path, listener, some guard.identity, false, true, true⟩ :: start.held
          look := .nothing }, ?_, ?_⟩
        · simp only [Phase.removed, Phase.see, holds.1, and_self, ↓reduceIte, Except.isOk, Except.toBool]
        · have given : Holds start ⟨guard.path, listener, some guard.identity, false, true, true⟩ { phase with
              held := ⟨guard.path, listener, some guard.identity, false, true, true⟩ :: start.held
              look := .nothing } :=
            ⟨rfl, holds.2⟩
          obtain ⟨reached, closes, kept⟩ := closed_top given fun impossible => absurd impossible Bool.false_ne_true
          exact close_complies closes kept
    · simp only [same, ↓reduceIte]
      exact forsaken_complies holds

/-- An activated listener has no guard. -/
theorem dropTaken_complies {listener : Nat} (empty : phase.held = []) (taken : phase.taken = some listener) :
    Program.Complies monitor phase (dropBound listener none) fun reached _ =>
      reached.held = [] ∧ reached.taken = none := by
  have closes : phase.closed listener = some { phase with taken := none, look := .nothing } := by
    simp only [Phase.closed, empty, taken, ↓reduceIte]
  exact close_complies closes ⟨empty, rfl⟩

/-! ## Starting -/

/-- Nothing is held at all. -/
def Empty (phase : Phase) : Prop := phase.held = [] ∧ phase.taken = none

/-- A socket that listens, is the user's only and has a guard. -/
def Held.guarded (listener : Nat) (guard : SocketGuard) : Held :=
  ⟨guard.path, listener, some guard.identity, true, true, true⟩

/-- What is held of the agent's own socket: it was bound, or its listener was given. -/
def OwnSocket (reached : Phase) (listener : Nat) : Option SocketGuard → Prop
  | some guard => reached.held = [Held.guarded listener guard] ∧ reached.taken = none
  | none => reached.held = [] ∧ reached.taken = some listener

/-- The agent's own socket is bound or given, or nothing is held. -/
theorem activatedOrBoundListener_complies {uid : Nat} (empty : Empty phase) :
    Program.Complies monitor phase (activatedOrBoundListener uid path).run fun reached outcome =>
      match outcome with
      | .ok (listener, guard) => OwnSocket reached listener guard ∧ reached.look.settled = true
      | .error _ => Empty reached := by
  refine Program.Complies.routine (Program.complies_observed (Program.complies_call fun count =>
    ⟨phase.see .nothing, rfl, Program.continues_ok ?_⟩))
  refine Program.Complies.routine (Program.complies_check ?_)
  unfold checkInherited
  split
  · exact empty
  refine Program.continues_ok (Program.Complies.routine (Program.complies_demand
    (Program.complies_call fun answer => ?_)))
  rcases (answer : Except IoError (Option Nat)) with error | _ | listener
  · exact ⟨(phase.see .nothing).see .nothing, rfl, empty⟩
  · refine ⟨(phase.see .nothing).see .nothing, rfl, Program.continues_ok ?_⟩
    refine Program.Complies.routine ((guarded_complies rfl).weaken fun reached outcome ends => ?_)
    rcases outcome with error | ⟨listener, guard⟩
    · exact ⟨ends.1.trans empty.1, ends.2.1.trans empty.2⟩
    · obtain ⟨rfl, ⟨held, taken⟩, settled⟩ := ends
      exact ⟨⟨held.trans (congrArg _ empty.1), taken.trans empty.2⟩, settled⟩
  · have taking : monitor (phase.see .nothing)
        ⟨.takeUnixListener, (.ok (some listener) : Except IoError (Option Nat))⟩ =
        some { phase with taken := some listener, look := .nothing } := if_pos empty
    refine ⟨_, taking, Program.continues_ok (releasing_complies ?_)⟩
    have given {middle : Phase} (held : middle.held = []) (taken : middle.taken = some listener) :
        Program.Complies monitor middle (close listener) fun reached _ => Empty reached := dropTaken_complies held taken
    refine Program.Complies.routine (Program.complies_demand (Program.complies_call fun answer => ⟨_, rfl, ?_⟩))
    rcases (answer : Except IoError (Option Path)) with error | address
    · exact given empty.1 rfl
    refine Program.continues_ok (Program.Complies.routine (Program.complies_check ?_))
    unfold checkAddress
    split
    · exact given empty.1 rfl
    refine Program.continues_ok (Program.Complies.routine (Program.complies_demand
      (inspect_complies rfl fun outcome => ?_)))
    obtain ⟨held, taken, settled⟩ : Kept { phase with taken := some listener, look := .nothing }
        (Phase.recognise { phase with taken := some listener, look := .nothing } path outcome) := kept_recognise outcome
    cases outcome with
    | error error => exact given (held.trans empty.1) taken
    | ok metadata =>
      refine Program.continues_ok (Program.Complies.routine (Program.complies_check ?_))
      unfold checkActivated
      split
      · exact ⟨⟨held.trans empty.1, taken⟩, settled⟩
      · exact given (held.trans empty.1) taken

/-- How a startup ends. -/
def Started (reached : Phase) : Except String Serving → Prop
  | .ok serving => ∃ own : Phase, OwnSocket own serving.listener serving.guard ∧
      Holds own (Held.guarded serving.controlListener serving.controlGuard) reached
  | .error _ => Empty reached

/-- Whatever the startup owns besides is kept until its control socket is given up. -/
theorem prepareControl_complies {environment : Environment} {listener : Nat} {guard : Option SocketGuard}
    (settled : phase.look.settled = true) :
    Program.Complies monitor phase (prepareControl environment listener guard).run fun reached outcome =>
      match outcome with
      | .ok serving => serving.listener = listener ∧ serving.guard = guard ∧
          Holds phase (Held.guarded serving.controlListener serving.controlGuard) reached
      | .error _ => Kept phase reached := by
  have unchanged : Kept phase phase := ⟨rfl, rfl, settled⟩
  refine Program.Complies.routine (Program.complies_check ?_)
  cases defaultControlSocketPath environment with
  | error error => exact unchanged
  | ok controlPath =>
  refine Program.continues_ok (Program.Complies.routine ((bindGuardedSocket_complies settled).weaken ?_))
  rintro reached (error | ⟨controlListener, controlGuard⟩) ⟨start, kept, ends⟩
  · exact kept.trans ends
  obtain ⟨rfl, ⟨held, taken⟩, looks⟩ := ends
  have holds {middle : Phase} (same : middle.held = reached.held ∧ middle.taken = reached.taken) :
      Holds phase (Held.guarded controlListener controlGuard) middle :=
    ⟨same.1.trans (held.trans (congrArg _ kept.1)), same.2.trans (taken.trans kept.2.1)⟩
  have drops {middle : Phase} (same : middle.held = reached.held ∧ middle.taken = reached.taken)
      (looks : middle.look.settled = true) :
      Program.Complies monitor middle (dropBound controlListener (some controlGuard)) fun reached _ =>
        Kept phase reached := dropBound_complies (holds same) looks
  refine Program.continues_ok (releasing_complies (Program.Complies.routine (Program.complies_check ?_)))
  cases defaultConfigPath environment with
  | error error => exact drops ⟨rfl, rfl⟩ looks
  | ok configPath =>
  refine Program.continues_ok (Program.Complies.routine (Program.complies_demand (Program.complies_call fun answer =>
    ⟨reached.see .nothing, rfl, ?_⟩)))
  rcases (answer : Except Configuration.ConfigError Configuration.Config) with error | config
  · exact drops ⟨rfl, rfl⟩ rfl
  refine Program.continues_ok (Program.Complies.routine (Program.complies_check ?_))
  cases defaultStoreDirectory environment with
  | error error => exact drops ⟨rfl, rfl⟩ rfl
  | ok _ =>
  refine Program.continues_ok (Program.Complies.routine (Program.complies_check ?_))
  cases defaultHistoryPath environment with
  | error error => exact drops ⟨rfl, rfl⟩ rfl
  | ok _ =>
  refine Program.continues_ok (Program.Complies.routine (Program.complies_demand (Program.complies_call fun answer =>
    ⟨(reached.see .nothing).see .nothing, rfl, ?_⟩)))
  rcases (answer : Except IoError Unit) with error | _
  · exact drops ⟨rfl, rfl⟩ rfl
  · exact Program.continues_ok ⟨rfl, rfl, holds ⟨rfl, rfl⟩⟩

/-- Whatever its environment answers, a startup keeps to the account: it removes only a
socket that it saw deserted or recognised as its own, and when it fails it has given up
everything it held. -/
theorem start_complies (uid : Nat) (environment : Environment) :
    Program.Complies monitor .initial (start uid environment).run Started := by
  refine Program.Complies.routine (Program.complies_check ?_)
  cases defaultSocketPath environment with
  | error error => exact ⟨rfl, rfl⟩
  | ok socketPath =>
  refine Program.continues_ok (Program.Complies.routine (Program.complies_check ?_))
  cases socketPath.parent with
  | none => exact ⟨rfl, rfl⟩
  | some parent =>
  refine Program.continues_ok (Program.Complies.routine (Program.complies_adapt
    ((ensurePrivateDirectory_complies rfl).weaken fun start outcome kept => ?_)))
  rcases outcome with error | _
  · exact ⟨kept.1, kept.2.1⟩
  refine Program.continues_ok (Program.Complies.routine
    ((activatedOrBoundListener_complies ⟨kept.1, kept.2.1⟩).weaken ?_))
  rintro own (error | ⟨listener, guard⟩) ends
  · exact ends
  obtain ⟨owns, settled⟩ := ends
  refine Program.continues_ok (releasing_complies ((prepareControl_complies settled).weaken ?_))
  rintro reached (error | serving) ends
  · cases guard with
    | none => exact dropTaken_complies (ends.1.trans owns.1) (ends.2.1.trans owns.2)
    | some guard =>
      have holds : Holds { own with held := [] } (Held.guarded listener guard) reached :=
        ⟨ends.1.trans owns.1, ends.2.1⟩
      exact (dropBound_complies holds ends.2.2).weaken fun final _ kept => ⟨kept.1, kept.2.1.trans owns.2⟩
  · obtain ⟨rfl, rfl, holds⟩ := ends
    exact ⟨own, owns, holds⟩

end

end Keyvisor.Custody
