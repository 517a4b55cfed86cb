import Keyvisor.Foundation.Faults

/-!
# Looking at a directory whose operations fail

A routine that gives up on every failure succeeds under a pattern of failures only as it
does without failures. When all its operations only look at the directory, it leaves the
directory alone wherever it is stopped. Both are properties of the routine's shape, so they
are found by following its sequences.
-/

namespace Keyvisor.Foundation.Directory

open Program

variable {ε δ α β : Type}

/-- The operation leaves the directory as it is. -/
def Looks : Operation → Prop
  | .inspectDirectory => True
  | .inspectPath => True
  | .inspect _ => True
  | .entryKind _ => True
  | .read _ => True
  | .readDirectory => True
  | _ => False

/-- Whatever is answered, the program does not succeed. -/
def Fails (program : Program Operation Answer (Except ε α)) : Prop :=
  program.Ensures (fun _ => True) fun outcome => ∀ value, outcome ≠ .ok value

/-- Every failure of an operation is one of the program. -/
def Strict : Program Operation Answer (Except ε α) → Prop
  | .done _ => True
  | .ask operation next =>
    (∀ fault : Fault, Fails (next (refusal fault.error operation))) ∧ ∀ answer, Strict (next answer)

/-- An error fails. -/
theorem fails_error (error : ε) : Fails (.done (.error error) : Program Operation Answer (Except ε α)) := by
  intro value impossible
  cases impossible

/-- A routine that fails is not continued. -/
theorem Fails.routine {routine : Task ε α} (fails : Fails routine.run) (next : α → Task ε β) :
    Fails (routine >>= next).run := by
  refine Ensures.bind fails fun outcome failed => ?_
  cases outcome with
  | ok value => exact absurd rfl (failed value)
  | error error => exact fails_error error

/-- A sequence of strict routines is strict. -/
theorem Strict.routine {routine : Task ε α} {next : α → Task ε β} (strict : Strict routine.run)
    (rest : ∀ value, Strict (next value).run) : Strict (routine >>= next).run := by
  suffices general : ∀ program : Program Operation Answer (Except ε α), Strict program →
      Strict (program >>= ExceptT.bindCont next) from general routine.run strict
  intro program
  induction program with
  | done outcome =>
    intro _
    cases outcome with
    | ok value => exact rest value
    | error error => trivial
  | ask operation continuation inductionHypothesis =>
    rintro ⟨fails, continues⟩
    exact ⟨fun fault => (fails fault : Fails (ExceptT.run (continuation (refusal fault.error operation)))).routine next,
      fun answer => inductionHypothesis answer (continues answer)⟩

/-- A check is strict. -/
theorem strict_check (check : Except ε α) : Strict (liftM check : Task ε α).run := by
  cases check <;> trivial

/-- A translated error leaves a routine strict. -/
theorem Strict.adapt {routine : Task ε α} (strict : Strict routine.run) (report : ε → δ) :
    Strict (reporting report routine).run := by
  suffices general : ∀ program : Program Operation Answer (Except ε α), Strict program →
      Strict (program >>= fun outcome => (.done (outcome.mapError report) : Program Operation Answer (Except δ α))) from
    general routine.run strict
  intro program
  induction program with
  | done outcome => exact fun _ => trivial
  | ask operation continuation inductionHypothesis =>
    rintro ⟨fails, continues⟩
    refine ⟨fun fault => Ensures.bind (fails fault) fun outcome failed => ?_,
      fun answer => inductionHypothesis answer (continues answer)⟩
    cases outcome with
    | ok value => exact absurd rfl (failed value)
    | error error => exact fails_error _

/-- A fold of strict steps is strict. -/
theorem strict_foldlM {γ : Type} {step : γ → β → Task ε γ} (each : ∀ value item, Strict (step value item).run)
    (start : γ) (items : List β) : Strict (items.foldlM step start).run := by
  induction items generalizing start with
  | nil => trivial
  | cons item rest inductionHypothesis =>
    rw [List.foldlM_cons]
    exact (each start item).routine inductionHypothesis

/-- A fold issues what its steps issue. -/
theorem issues_foldlM {γ : Type} {allowed : Operation → Prop} {step : γ → β → Task ε γ}
    (each : ∀ value item, (step value item).run.Issues allowed) (start : γ) (items : List β) :
    (items.foldlM step start).run.Issues allowed := by
  induction items generalizing start with
  | nil => trivial
  | cons item rest inductionHypothesis =>
    rw [List.foldlM_cons]
    exact (each start item).routine inductionHypothesis

variable {enumerate : List Name → List Name} {faults : Faults}

/-- A program that fails does not run to a success. -/
theorem Fails.run {program : Program Operation Answer (Except ε α)} (fails : Fails program) {σ : Type}
    (handler : (operation : Operation) → σ → Answer operation × σ) (state : σ) (value : α) :
    (program.run handler state).1 ≠ .ok value := by
  induction program generalizing state with
  | done outcome => exact fails value
  | ask operation next inductionHypothesis => exact inductionHypothesis _ (fails.2 _) _

/-- A success under failures is one without. -/
theorem Strict.unfailing {program : Program Operation Answer (Except ε α)} (strict : Strict program) {place : Place}
    {value : α} (succeeded : (program.run (attempt enumerate faults) place).1 = .ok value) :
    program.run (perform enumerate) place = program.run (attempt enumerate faults) place := by
  induction program generalizing place with
  | done outcome => rfl
  | ask operation next inductionHypothesis =>
    cases struck : faults operation with
    | none =>
      have performed : attempt enumerate faults operation place = perform enumerate operation place := by
        rw [attempt, struck]
      rw [Program.run, performed] at succeeded
      rw [Program.run, Program.run, performed]
      exact inductionHypothesis _ (strict.2 _) succeeded
    | some fault =>
      have refused : (attempt enumerate faults operation place).1 = refusal fault.error operation := by
        rw [attempt, struck]
      rw [Program.run, refused] at succeeded
      exact absurd succeeded ((strict.1 fault).run _ _ value)

/-- An operation that looks leaves the place, whether or not it fails. -/
theorem attempt_unmoved {operation : Operation} (looks : Looks operation) (place : Place) :
    (attempt enumerate faults operation place).2 = place := by
  unfold attempt
  cases faults operation <;> cases operation <;> first | rfl | cases looks

/-- What a strict routine finds that only looks, it finds without failures too. -/
theorem meets_finding {program : Program Operation Answer (Except ε α)} (issues : program.Issues Looks)
    (strict : Strict program) (start : Place) :
    Meets (attempt enumerate faults) (fun place => place = start) program (fun place => place = start)
      (fun outcome place => place = start ∧
        ∀ value, outcome = .ok value → program.run (perform enumerate) start = (.ok value, start)) := by
  have keeps (operation : Operation) (place : Place) (looks : Looks operation) :
      (attempt enumerate faults operation place).2 = place := attempt_unmoved looks place
  refine (issues.meets keeps start).weaken (fun _ => id) (fun _ => id) ?_
  rintro _ place ⟨same, rfl⟩
  refine ⟨same, fun value succeeded => ?_⟩
  have unmoved := issues.run_unchanged (attempt enumerate faults) keeps start
  rw [strict.unfailing succeeded]
  exact Prod.ext succeeded unmoved

end Keyvisor.Foundation.Directory
