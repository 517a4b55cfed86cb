import Mathlib.Logic.Basic

/-!
# Runs of a transition function

A system is an executable step function that answers `none` when an action is
not enabled. A run is a sequence of enabled actions. Safety of every run reduces
to one step.
-/

namespace Keyvisor.Foundation.Transition

variable {State Action : Type} (step : State → Action → Option State)

/-- The state after a sequence of actions, when every one of them is enabled. -/
def run (state : State) : List Action → Option State
  | [] => some state
  | action :: rest =>
    match step state action with
    | some next => run next rest
    | none => none

/-- The states that some run reaches. -/
def Reaches (initial state : State) : Prop := ∃ actions, run step initial actions = some state

/-- Every action of a run is taken in a state that allows it. -/
def Along (allowed : State → Action → Prop) (state : State) : List Action → Prop
  | [] => True
  | action :: rest => allowed state action ∧ ∀ next, step state action = some next → Along allowed next rest

instance decidableAlong (allowed : State → Action → Prop) [∀ state action, Decidable (allowed state action)]
    (state : State) (actions : List Action) : Decidable (Along step allowed state actions) :=
  match actions with
  | [] => .isTrue trivial
  | action :: rest =>
    have (next : State) : Decidable (Along step allowed next rest) := decidableAlong allowed next rest
    inferInstanceAs (Decidable (allowed state action ∧ ∀ next ∈ step state action, Along step allowed next rest))

variable {step}

/-- A run with a first action takes that step and continues from its result. -/
theorem run_cons {state final : State} {action : Action} {rest : List Action} :
    run step state (action :: rest) = some final ↔
      ∃ next, step state action = some next ∧ run step next rest = some final := by
  simp only [run]
  cases step state action with
  | none => simp
  | some next => simp

/-- A run in two parts. -/
theorem run_append {state middle final : State} {first second : List Action}
    (reached : run step state first = some middle) (continued : run step middle second = some final) :
    run step state (first ++ second) = some final := by
  induction first generalizing state with
  | nil =>
    cases reached
    exact continued
  | cons action rest inductionHypothesis =>
    obtain ⟨next, taken, remaining⟩ := run_cons.mp reached
    exact run_cons.mpr ⟨next, taken, inductionHypothesis remaining⟩

/-- An enabled step from a reached state reaches the next one. -/
theorem Reaches.next {initial state after : State} {action : Action} (reaches : Reaches step initial state)
    (taken : step state action = some after) : Reaches step initial after := by
  obtain ⟨actions, reached⟩ := reaches
  exact ⟨actions ++ [action], run_append reached (run_cons.mpr ⟨after, taken, rfl⟩)⟩

/-- The same for the permission of every action. -/
theorem Along.append {allowed : State → Action → Prop} {state middle : State} {first second : List Action}
    (along : Along step allowed state first) (reached : run step state first = some middle)
    (later : Along step allowed middle second) : Along step allowed state (first ++ second) := by
  induction first generalizing state with
  | nil =>
    cases reached
    exact later
  | cons action rest inductionHypothesis =>
    obtain ⟨next, taken, remaining⟩ := run_cons.mp reached
    refine ⟨along.1, fun other same => ?_⟩
    obtain rfl := Option.some.inj (same.symm.trans taken)
    exact inductionHypothesis (along.2 other same) remaining

/-- Steps that are allowed are allowed by any wider rule. -/
theorem Along.imp {allowed wider : State → Action → Prop} {state : State} {actions : List Action}
    (along : Along step allowed state actions) (implies : ∀ state action, allowed state action → wider state action) :
    Along step wider state actions := by
  induction actions generalizing state with
  | nil => exact trivial
  | cons action rest inductionHypothesis =>
    exact ⟨implies state action along.1, fun next taken => inductionHypothesis (along.2 next taken)⟩

/-- A property that every enabled step keeps holds in every state of every run. -/
theorem invariant_run {invariant : State → Prop}
    (kept : ∀ state action next, invariant state → step state action = some next → invariant next)
    {initial final : State} {actions : List Action} (holds : invariant initial)
    (reached : run step initial actions = some final) : invariant final := by
  induction actions generalizing initial with
  | nil =>
    cases reached
    exact holds
  | cons action rest inductionHypothesis =>
    obtain ⟨next, taken, remaining⟩ := run_cons.mp reached
    exact inductionHypothesis (kept initial action next holds taken) remaining

/-- A property that every allowed step keeps holds along every run of allowed steps. -/
theorem invariant_along {allowed : State → Action → Prop} {invariant : State → Prop}
    (kept : ∀ state action next, invariant state → allowed state action → step state action = some next →
      invariant next)
    {initial final : State} {actions : List Action} (holds : invariant initial)
    (along : Along step allowed initial actions) (reached : run step initial actions = some final) :
    invariant final := by
  induction actions generalizing initial with
  | nil =>
    cases reached
    exact holds
  | cons action rest inductionHypothesis =>
    obtain ⟨next, taken, remaining⟩ := run_cons.mp reached
    exact inductionHypothesis (kept initial action next holds along.1 taken) (along.2 next taken) remaining

/-- What holds of a state and the number of counted actions before it, when every step keeps
it, holds at the end of every run of the number of counted actions in the run. -/
theorem counted_run {within : Nat → State → Prop} (counted : Action → Bool)
    (kept : ∀ taken state action next, within taken state → step state action = some next →
      within (taken + (counted action).toNat) next)
    {taken : Nat} {initial final : State} {actions : List Action} (holds : within taken initial)
    (reached : run step initial actions = some final) : within (taken + actions.countP counted) final := by
  induction actions generalizing taken initial with
  | nil =>
    cases reached
    exact holds
  | cons action rest inductionHypothesis =>
    obtain ⟨next, first, remaining⟩ := run_cons.mp reached
    have later := inductionHypothesis (kept taken initial action next holds first) remaining
    have count : taken + (action :: rest).countP counted = taken + (counted action).toNat + rest.countP counted := by
      rw [List.countP_cons]
      cases counted action <;> simp [Nat.add_comm, Nat.add_left_comm]
    rw [count]
    exact later

end Keyvisor.Foundation.Transition
