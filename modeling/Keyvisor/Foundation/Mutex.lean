import Keyvisor.Foundation.Program
import Keyvisor.Foundation.Transition
import Mathlib.Data.List.Perm.Basic

/-!
# Routines under one mutex

Threads arrive with a job each, take the mutex in any order, run the routine of
their job one operation at a time on the shared state, and release the mutex.
Nothing is assumed about the order in which waiting threads are chosen.

Every run is the sequential execution of the routines in the order in which the
mutex was taken: with the mutex free, the shared state is the sequential one;
with the mutex held, it is a state that the holder's routine passes through.
-/

namespace Keyvisor.Foundation.Mutex

variable {Operation : Type} {Answer : Operation → Type} {σ Job α : Type}

/-- The shared state, the waiting jobs, the holder with the rest of its routine,
and the jobs in the order in which they took the mutex. -/
structure State (Operation : Type) (Answer : Operation → Type) (σ Job α : Type) where
  shared : σ
  waiting : List Job
  holder : Option (Job × Program Operation Answer α)
  entered : List Job

/-- The mutex is free and no thread has arrived. -/
def State.initial (shared : σ) : State Operation Answer σ Job α := ⟨shared, [], none, []⟩

/-- A job arrives, takes the lock, goes on, or leaves. -/
inductive Action (Job : Type) where
  | arrive (job : Job)
  | enter (position : Nat)
  | operate
  | leave

variable (handler : (operation : Operation) → σ → Answer operation × σ)
  (routine : Job → Program Operation Answer α)

/-- One step. Only the holder of the lock goes on. -/
def step (state : State Operation Answer σ Job α) :
    Action Job → Option (State Operation Answer σ Job α)
  | .arrive job => some { state with waiting := state.waiting ++ [job] }
  | .enter position =>
    match state.holder, state.waiting[position]? with
    | none, some job => some { state with
        waiting := state.waiting.eraseIdx position
        holder := some (job, routine job)
        entered := state.entered ++ [job] }
    | _, _ => none
  | .operate =>
    match state.holder with
    | some (job, .ask operation next) => some { state with
        shared := (handler operation state.shared).2
        holder := some (job, next (handler operation state.shared).1) }
    | _ => none
  | .leave =>
    match state.holder with
    | some (_, .done _) => some { state with holder := none }
    | _ => none

/-- The jobs that arrive along a run. -/
def arrivals : List (Action Job) → List Job
  | [] => []
  | .arrive job :: rest => job :: arrivals rest
  | _ :: rest => arrivals rest

/-- Run the routines of the jobs one after another. -/
def serial (shared : σ) (jobs : List Job) : σ :=
  jobs.foldl (fun reached job => ((routine job).run handler reached).2) shared

/-- The shared state is what the sequential execution reaches, or passes through
inside the holder's routine. -/
def Serialised (start : σ) (state : State Operation Answer σ Job α) : Prop :=
  match state.holder with
  | none => state.shared = serial handler routine start state.entered
  | some (job, remaining) => ∃ earlier, state.entered = earlier ++ [job] ∧
      remaining.run handler state.shared =
        (routine job).run handler (serial handler routine start earlier) ∧
      ∀ visited ∈ remaining.trail handler state.shared,
        visited ∈ (routine job).trail handler (serial handler routine start earlier)

variable {handler routine}

/-- Each step keeps the correspondence: entering starts the routine where the
sequential execution stands, operating follows the routine, and leaving ends it. -/
theorem serialised_step (start : σ) (state : State Operation Answer σ Job α) (action : Action Job)
    (next : State Operation Answer σ Job α) (held : Serialised handler routine start state)
    (taken : step handler routine state action = some next) :
    Serialised handler routine start next := by
  obtain ⟨shared, waiting, holder, entered⟩ := state
  cases action with
  | arrive job =>
    cases taken
    exact held
  | enter position =>
    cases holder with
    | some current => simp [step] at taken
    | none =>
      cases found : waiting[position]? with
      | none => simp [step, found] at taken
      | some job =>
        simp only [step, found, Option.some.injEq] at taken
        subst taken
        have stands : shared = serial handler routine start entered := held
        exact ⟨entered, rfl, by rw [stands], by rw [stands]; exact fun _ passed => passed⟩
  | operate =>
    cases holder with
    | none => cases taken
    | some current =>
      obtain ⟨job, remaining⟩ := current
      cases remaining with
      | done value => cases taken
      | ask operation continuation =>
        cases taken
        obtain ⟨earlier, order, ends, passes⟩ := held
        exact ⟨earlier, order, ends, fun visited passed => passes visited (List.mem_cons_of_mem _ passed)⟩
  | leave =>
    cases holder with
    | none => cases taken
    | some current =>
      obtain ⟨job, remaining⟩ := current
      cases remaining with
      | ask operation continuation => cases taken
      | done value =>
        cases taken
        obtain ⟨earlier, order, ends, _⟩ := held
        have final : ((routine job).run handler (serial handler routine start earlier)).2 = shared :=
          congrArg Prod.snd ends.symm
        show shared = serial handler routine start entered
        rw [show entered = earlier ++ [job] from order, serial, List.foldl_append]
        exact final.symm

/-- Every run corresponds to the sequential execution in the order of entry. -/
theorem serialised_run (start : σ) {actions : List (Action Job)}
    {state : State Operation Answer σ Job α}
    (reached : Transition.run (step handler routine) (.initial start) actions = some state) :
    Serialised handler routine start state := by
  have begins : Serialised handler routine start (.initial start) := by
    simp [Serialised, State.initial, serial]
  exact Transition.invariant_run (serialised_step start) begins reached

/-- Every arrived job waits or has entered, exactly once. -/
theorem arrivals_perm {actions : List (Action Job)} {before after : State Operation Answer σ Job α}
    (reached : Transition.run (step handler routine) before actions = some after) :
    (before.waiting ++ before.entered ++ arrivals actions).Perm (after.waiting ++ after.entered) := by
  induction actions generalizing before with
  | nil =>
    cases reached
    simp [arrivals]
  | cons action rest inductionHypothesis =>
    obtain ⟨next, taken, remaining⟩ := Transition.run_cons.mp reached
    refine List.Perm.trans ?_ (inductionHypothesis remaining)
    cases action with
    | arrive job =>
      cases taken
      simp only [arrivals, List.append_assoc, List.singleton_append]
      exact List.Perm.append_left _ List.perm_middle
    | enter position =>
      simp only [step] at taken
      split at taken
      · rename_i job _ found
        cases taken
        obtain ⟨within, rfl⟩ := List.getElem?_eq_some_iff.mp found
        have kept := (List.getElem_cons_eraseIdx_perm within).symm
        refine List.Perm.append_right _ ?_
        rw [← List.append_assoc]
        refine (List.Perm.append_right _ kept).trans ?_
        rw [List.cons_append]
        exact (List.perm_append_singleton _ _).symm
      · cases taken
    | operate =>
      simp only [step] at taken
      split at taken <;> cases taken
      exact List.Perm.refl _
    | leave =>
      simp only [step] at taken
      split at taken <;> cases taken
      exact List.Perm.refl _

end Keyvisor.Foundation.Mutex
