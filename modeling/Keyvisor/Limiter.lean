import Keyvisor.Foundation.Ownership

/-!
# Accept loops behind a connection limiter

Executable translation of `ConnectionLimiter`, `ConnectionPermit` and of the accept
loops of `serve` and `spawn_control_service` in `keyvisor-agent/src/main.rs`, which
differ only in what a worker does. A listener accepts a connection, waits for a
permit and hands both to a worker thread. The permit is dropped with the worker, or
with the closure when the thread cannot be started.

The counter never disagrees with the permits that exist, so it never saturates.
-/

namespace Keyvisor.Limiter

/-- `MAX_CONNECTIONS`. -/
def maxConnections : Nat := 16

/-- Where the accept loop stands: before an accept, before a permit, or with a
permit before the worker is started. -/
inductive Listener where
  | accepting
  | acquiring
  | spawning
  deriving DecidableEq, Repr

/-- The permit that the listener holds itself. -/
def Listener.permits : Listener → Nat
  | accepting => 0
  | acquiring => 0
  | spawning => 1

/-- A worker thread. Its last state stays on record after it has ended. -/
structure Worker (α : Type) where
  alive : Bool
  state : α

/-- A listener, its limiter's counter and the workers in the order of their start. -/
structure Server (α : Type) where
  active : Nat
  listener : Listener
  workers : List (Worker α)

/-- What the accepting loop and the workers do. -/
inductive Action where
  | accept
  | acquire
  | spawn (started : Bool)
  | finish (worker : Nat)
  deriving DecidableEq, Repr

namespace Server

variable {α : Type}

/-- A server without workers. -/
def new : Server α := ⟨0, .accepting, []⟩

/-- Dropping a permit. -/
def release (server : Server α) : Server α := { server with active := server.active - 1 }

/-- The state of a worker that is still running. -/
def running (server : Server α) (worker : Nat) : Option α :=
  match server.workers[worker]? with
  | some ⟨true, state⟩ => some state
  | _ => none

/-- What a running worker does to its own state. -/
def update (server : Server α) (worker : Nat) (state : α) : Server α :=
  { server with workers := server.workers.set worker ⟨true, state⟩ }

/-- The states of all workers that were ever started. -/
def states (server : Server α) : List α := server.workers.map Worker.state

/-- The permits that exist: one for each running worker, and the listener's own. -/
def permits (server : Server α) : Nat :=
  server.workers.countP Worker.alive + server.listener.permits

variable (initial : α) (ended : α → Bool)

/-- One step of the accept loop, or the end of a worker that has nothing left to do. -/
def step (server : Server α) : Action → Option (Server α)
  | .accept => if server.listener = .accepting then some { server with listener := .acquiring } else none
  | .acquire =>
    if server.listener = .acquiring ∧ server.active < maxConnections then
      some { server with active := server.active + 1, listener := .spawning }
    else none
  | .spawn started =>
    if server.listener = .spawning then
      if started then
        some { server with listener := .accepting, workers := server.workers ++ [⟨true, initial⟩] }
      else some { server with listener := .accepting }.release
    else none
  | .finish worker =>
    match server.running worker with
    | some state =>
      if ended state then
        some { server with workers := server.workers.set worker ⟨false, state⟩ }.release
      else none
    | none => none

/-- The counter is the number of permits, and there are never too many. -/
structure Accounted (server : Server α) : Prop where
  counted : server.active = server.permits
  bounded : server.active ≤ maxConnections

/-- A new server has no workers to account for. -/
theorem accounted_new : Accounted (new : Server α) := ⟨rfl, Nat.zero_le _⟩

/-- A running worker is listed as one. -/
theorem running_eq_some {server : Server α} {worker : Nat} {state : α} :
    server.running worker = some state ↔ server.workers[worker]? = some ⟨true, state⟩ := by
  unfold running
  split
  · rename_i found
    simp [found]
  · rename_i other
    constructor
    · intro impossible
      cases impossible
    · intro found
      exact absurd found (other _)

/-- The state of a running worker is listed. -/
theorem states_of_running {server : Server α} {worker : Nat} {state : α}
    (runs : server.running worker = some state) : server.states[worker]? = some state := by
  simp [states, running_eq_some.mp runs]

/-- An update changes the state of its own worker. -/
theorem states_update (server : Server α) (worker : Nat) (state : α) :
    (server.update worker state).states = server.states.set worker state := by
  simp [states, update]

/-- A worker's own step changes what that worker is running and nothing else. -/
theorem running_update {server : Server α} {worker : Nat} {old : α} (runs : server.running worker = some old)
    (state : α) (other : Nat) :
    (server.update worker state).running other = if worker = other then some state else server.running other := by
  obtain ⟨inside, _⟩ := List.getElem?_eq_some_iff.mp (running_eq_some.mp runs)
  unfold running update
  rw [List.getElem?_set]
  by_cases same : worker = other
  · subst same
    simp [inside]
  · simp [same]

/-- A running worker keeps its permit whatever it does. -/
theorem Accounted.update {server : Server α} (accounted : Accounted server) {worker : Nat} {old : α}
    (runs : server.running worker = some old) (state : α) : Accounted (server.update worker state) := by
  have found := running_eq_some.mp runs
  obtain ⟨inside, here⟩ := List.getElem?_eq_some_iff.mp found
  have same : (server.workers.set worker ⟨true, state⟩).countP Worker.alive =
      server.workers.countP Worker.alive := by
    have positive : 0 < server.workers.countP Worker.alive :=
      List.countP_pos_iff.mpr ⟨_, List.getElem_mem inside, by rw [here]⟩
    rw [List.countP_set inside, here]
    simp only [↓reduceIte]
    omega
  obtain ⟨counted, bounded⟩ := accounted
  refine ⟨?_, bounded⟩
  rw [show (server.update worker state).active = server.active from rfl, counted]
  simp only [permits, Server.update, same]

/-- Different running workers have different permits. -/
theorem length_le_permits {server : Server α} {workers : List Nat} (distinct : workers.Nodup)
    (running : ∀ worker ∈ workers, (server.running worker).isSome) : workers.length ≤ server.permits := by
  have alive : ∀ worker ∈ workers, ∃ record, server.workers[worker]? = some record ∧ record.alive := by
    intro worker member
    obtain ⟨state, runs⟩ := Option.isSome_iff_exists.mp (running worker member)
    exact ⟨⟨true, state⟩, running_eq_some.mp runs, rfl⟩
  exact Nat.le_trans (Foundation.length_le_countP Worker.alive server.workers distinct alive)
    (Nat.le_add_right _ _)

/-- A permit that is dropped was counted: the counter does not saturate. -/
theorem Accounted.active_pos {server : Server α} (accounted : Accounted server)
    (permitted : server.listener = .spawning ∨ ∃ worker, (server.running worker).isSome) : 0 < server.active := by
  rw [accounted.counted]
  rcases permitted with spawning | ⟨worker, runs⟩
  · simp [permits, spawning, Listener.permits]
  · have one : [worker].length ≤ server.permits := length_le_permits (List.nodup_singleton worker) (by simpa using runs)
    exact one

/-- Every step keeps the account: a permit is counted when it is acquired and when
it is dropped, and at no other time. -/
theorem Accounted.step {server next : Server α} (accounted : Accounted server) {action : Action}
    (taken : server.step initial ended action = some next) : Accounted next := by
  obtain ⟨counted, bounded⟩ := accounted
  cases action with
  | accept =>
    simp only [Server.step] at taken
    split at taken
    · rename_i accepting
      cases taken
      refine ⟨?_, bounded⟩
      simpa [permits, Listener.permits, accepting] using counted
    · cases taken
  | acquire =>
    simp only [Server.step] at taken
    split at taken
    · rename_i free
      cases taken
      refine ⟨?_, free.2⟩
      simpa [permits, Listener.permits, free.1] using counted
    · cases taken
  | spawn started =>
    simp only [Server.step] at taken
    split at taken
    · rename_i spawning
      cases started with
      | true =>
        cases taken
        refine ⟨?_, bounded⟩
        simpa [permits, Listener.permits, spawning] using counted
      | false =>
        cases taken
        have held : server.active = server.workers.countP Worker.alive + 1 := by
          simpa [permits, Listener.permits, spawning] using counted
        refine ⟨?_, Nat.le_trans (Nat.sub_le _ _) bounded⟩
        simp [permits, Listener.permits, release, held]
    · cases taken
  | finish worker =>
    simp only [Server.step] at taken
    split at taken
    · rename_i state runs
      split at taken
      · cases taken
        have found := running_eq_some.mp runs
        obtain ⟨inside, here⟩ := List.getElem?_eq_some_iff.mp found
        have positive : 0 < server.workers.countP Worker.alive :=
          List.countP_pos_iff.mpr ⟨_, List.getElem_mem inside, by rw [here]⟩
        refine ⟨?_, Nat.le_trans (Nat.sub_le _ _) bounded⟩
        simp only [permits, release, List.countP_set inside, here, ↓reduceIte] at counted ⊢
        simp only [Bool.false_eq_true, ↓reduceIte]
        omega
      · cases taken
    · cases taken

/-- The accept loop starts workers and changes none. -/
theorem states_step {server next : Server α} {action : Action}
    (taken : server.step initial ended action = some next) :
    next.states = server.states ∨ next.states = server.states ++ [initial] := by
  cases action with
  | accept =>
    simp only [Server.step] at taken
    split at taken
    · cases taken
      exact .inl rfl
    · cases taken
  | acquire =>
    simp only [Server.step] at taken
    split at taken
    · cases taken
      exact .inl rfl
    · cases taken
  | spawn started =>
    simp only [Server.step] at taken
    split at taken
    · cases started with
      | true =>
        cases taken
        exact .inr (by simp [states])
      | false =>
        cases taken
        exact .inl rfl
    · cases taken
  | finish worker =>
    simp only [Server.step] at taken
    split at taken
    · rename_i state runs
      split at taken
      · cases taken
        refine .inl ?_
        simp only [states, release, List.map_set]
        obtain ⟨inside, here⟩ := List.getElem?_eq_some_iff.mp (states_of_running runs)
        rw [← here]
        exact List.set_getElem_self inside
      · cases taken
    · cases taken

/-- A worker that has something left to do keeps running, whatever the accept loop
does and whoever ends. -/
theorem running_step {server next : Server α} {action : Action}
    (taken : server.step initial ended action = some next) {worker : Nat} {state : α}
    (runs : server.running worker = some state) (busy : ended state = false) :
    next.running worker = some state := by
  rw [running_eq_some] at runs ⊢
  cases action with
  | accept =>
    simp only [Server.step] at taken
    split at taken
    · cases taken
      exact runs
    · cases taken
  | acquire =>
    simp only [Server.step] at taken
    split at taken
    · cases taken
      exact runs
    · cases taken
  | spawn started =>
    simp only [Server.step] at taken
    split at taken
    · cases started with
      | true =>
        cases taken
        exact (List.getElem?_append_left (List.getElem?_eq_some_iff.mp runs).1).trans runs
      | false =>
        cases taken
        exact runs
    · cases taken
  | finish finisher =>
    simp only [Server.step] at taken
    split at taken
    · rename_i last at_finisher
      split at taken
      · rename_i finished
        cases taken
        have different : finisher ≠ worker := by
          rintro rfl
          rw [running_eq_some.mp at_finisher] at runs
          cases runs
          rw [finished] at busy
          cases busy
        simpa [release, different] using runs
      · cases taken
    · cases taken

end Server

end Keyvisor.Limiter
