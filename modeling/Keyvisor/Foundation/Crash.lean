import Keyvisor.Foundation.Program

/-!
# Crash conditions

A program that updates a state may be stopped between any two of its questions.
Its specification therefore has three parts: what holds before it, what holds at
every state at which it can be stopped, and what holds of its value and state when
it ends. The rules below compute such specifications along sequencing, for an
arbitrary handler; a failing environment is one more handler.
-/

namespace Keyvisor.Foundation

universe u

namespace Program

variable {Operation : Type} {Answer : Operation → Type} {α β : Type u} {ε δ : Type u} {σ : Type}
variable {handler : (operation : Operation) → σ → Answer operation × σ}

/-- Started where `before` holds, the program can be stopped only where `crash`
holds, and it ends where `after` holds of its value. -/
def Meets (handler : (operation : Operation) → σ → Answer operation × σ) (before : σ → Prop)
    (program : Program Operation Answer α) (crash : σ → Prop) (after : α → σ → Prop) : Prop :=
  ∀ state, before state → (∀ visited ∈ program.trail handler state, crash visited) ∧
    after (program.run handler state).1 (program.run handler state).2

/-- A finished program has no operation at which it could be stopped. -/
theorem meets_done {before crash : σ → Prop} {after : α → σ → Prop} {value : α}
    (holds : ∀ state, before state → crash state ∧ after value state) :
    Meets handler before (done value) crash after := by
  intro state start
  refine ⟨fun visited passed => ?_, (holds state start).2⟩
  rw [List.mem_singleton.mp passed]
  exact (holds state start).1

/-- One question can be stopped before it and after it. -/
theorem meets_call {before crash : σ → Prop} {operation : Operation}
    {after : Answer operation → σ → Prop}
    (holds : ∀ state, before state → crash state ∧ crash (handler operation state).2 ∧
      after (handler operation state).1 (handler operation state).2) :
    Meets handler before (call operation) crash after := by
  intro state start
  obtain ⟨early, late, answered⟩ := holds state start
  refine ⟨fun visited passed => ?_, answered⟩
  rcases List.mem_cons.mp passed with rfl | ended
  · exact early
  · rwa [List.mem_singleton.mp ended]

/-- The state at which a program ends is one at which it can be stopped. -/
theorem Meets.settled {before crash : σ → Prop} {program : Program Operation Answer α}
    {after : α → σ → Prop} (meets : Meets handler before program crash after) :
    Meets handler before program crash (fun value state => after value state ∧ crash state) := by
  intro state start
  obtain ⟨passes, ended⟩ := meets state start
  exact ⟨passes, ended, passes _ (final_mem_trail handler program state)⟩

/-- A sequence meets what its parts meet, with the same crash condition. -/
theorem Meets.bind {before crash : σ → Prop} {program : Program Operation Answer α}
    {next : α → Program Operation Answer β} {middle : α → σ → Prop} {after : β → σ → Prop}
    (first : Meets handler before program crash middle)
    (rest : ∀ value, Meets handler (middle value) (next value) crash after) :
    Meets handler before (program >>= next) crash after := by
  intro state start
  obtain ⟨early, reached⟩ := first state start
  obtain ⟨late, ended⟩ := rest _ _ reached
  rw [run_bind]
  refine ⟨fun visited passed => ?_, ended⟩
  rcases (mem_trail_bind _ _ _ _ _).mp passed with passed | passed
  · exact early visited passed
  · exact late visited passed

/-- Less may be required before, and less promised at a stop and at the end. -/
theorem Meets.weaken {before stronger crash weaker : σ → Prop} {program : Program Operation Answer α}
    {after final : α → σ → Prop} (meets : Meets handler before program crash after)
    (starts : ∀ state, stronger state → before state) (stops : ∀ state, crash state → weaker state)
    (ends : ∀ value state, after value state → final value state) :
    Meets handler stronger program weaker final := by
  intro state start
  obtain ⟨passes, ended⟩ := meets state (starts state start)
  exact ⟨fun visited passed => stops visited (passes visited passed), ends _ _ ended⟩

/-- A specification may be shown for one starting state at a time. -/
theorem meets_of_each {before crash : σ → Prop} {program : Program Operation Answer α}
    {after : α → σ → Prop}
    (each : ∀ state, before state → Meets handler (fun start => start = state) program crash after) :
    Meets handler before program crash after :=
  fun state start => each state start state rfl

/-- A program whose operations leave the state alone can be stopped only there. -/
theorem Issues.meets {allowed : Operation → Prop} {program : Program Operation Answer α}
    (issues : program.Issues allowed)
    (keeps : ∀ operation state, allowed operation → (handler operation state).2 = state) (start : σ) :
    Meets handler (fun state => state = start) program (fun state => state = start)
      (fun value state => state = start ∧ value = (program.run handler start).1) := by
  rintro _ rfl
  refine ⟨?_, issues.run_unchanged handler keeps _, rfl⟩
  induction program with
  | done value => exact fun visited => List.mem_singleton.mp
  | ask operation next inductionHypothesis =>
    intro visited passed
    rw [trail, keeps _ _ issues.1] at passed
    rcases List.mem_cons.mp passed with same | later
    · exact same
    · exact inductionHypothesis _ (issues.2 _) visited later

/-- A program as a part of a wider one meets the same, where the wider handler answers its
operations as its own does. -/
theorem Meets.translate {Wider : Type} {Reply : Wider → Type} {inject : Operation → Wider}
    {recover : (operation : Operation) → Reply (inject operation) → Answer operation}
    {wider : (operation : Wider) → σ → Reply operation × σ} {before crash : σ → Prop}
    {program : Program Operation Answer α} {after : α → σ → Prop}
    (agrees : ∀ operation state, recover operation (wider (inject operation) state).1 = (handler operation state).1 ∧
      (wider (inject operation) state).2 = (handler operation state).2)
    (meets : Meets handler before program crash after) :
    Meets wider before (program.translate inject recover) crash after := by
  have same (state : σ) : (program.translate inject recover).run wider state = program.run handler state ∧
      (program.translate inject recover).trail wider state = program.trail handler state := by
    clear meets
    induction program generalizing state with
    | done value => exact ⟨rfl, rfl⟩
    | ask operation next inductionHypothesis =>
      obtain ⟨answered, reached⟩ := agrees operation state
      obtain ⟨runs, trails⟩ := inductionHypothesis (handler operation state).1 (handler operation state).2
      simp only [Program.translate, run, trail, answered, reached, runs, trails, and_self]
  intro state start
  rw [(same state).1, (same state).2]
  exact meets state start

/-! ## Fallible routines -/

/-- A fallible sequence: the rest starts where the first part succeeded, and a
failure of the first part is a failure of the whole. -/
theorem Meets.routine {before crash : σ → Prop} {routine : ExceptT ε (Program Operation Answer) α}
    {next : α → ExceptT ε (Program Operation Answer) β} {middle : Except ε α → σ → Prop}
    {after : Except ε β → σ → Prop} (first : Meets handler before routine.run crash middle)
    (rest : ∀ value, Meets handler (middle (.ok value)) (next value).run crash after)
    (fails : ∀ error state, middle (.error error) state → after (.error error) state) :
    Meets handler before (routine >>= next).run crash after := by
  apply Meets.bind first.settled
  intro outcome
  cases outcome with
  | ok value => exact (rest value).weaken (fun _ reached => reached.1) (fun _ => id) fun _ _ => id
  | error error => exact meets_done fun state reached => ⟨reached.2, fails error state reached.1⟩

/-- A lifted check asks nothing. -/
theorem meets_check {before crash : σ → Prop} {check : Except ε α} {after : Except ε α → σ → Prop}
    (holds : ∀ state, before state → crash state ∧ after check state) :
    Meets handler before (liftM check : ExceptT ε (Program Operation Answer) α).run crash after := by
  cases check <;> exact meets_done holds

/-- An observed program ends in its own value. -/
theorem Meets.observed {before crash : σ → Prop} {program : Program Operation Answer α}
    {after : α → σ → Prop} (meets : Meets handler before program crash after) :
    Meets handler before (liftM program : ExceptT ε (Program Operation Answer) α).run crash
      (fun outcome state => ∃ value, outcome = .ok value ∧ after value state) :=
  Meets.bind (β := Except ε α) meets.settled fun value =>
    meets_done fun _ reached => ⟨reached.2, value, rfl, reached.1⟩

/-- Renaming the error of a routine renames it in the outcome. -/
theorem Meets.adapt {before crash : σ → Prop} (report : ε → δ)
    {routine : ExceptT ε (Program Operation Answer) α} {after : Except ε α → σ → Prop}
    (meets : Meets handler before routine.run crash after) :
    Meets handler before (ExceptT.adapt report routine).run crash
      (fun outcome state => ∃ inner, outcome = inner.mapError report ∧ after inner state) :=
  Meets.bind (β := Except δ α) meets.settled fun inner =>
    meets_done fun _ reached => ⟨reached.2, inner, rfl, reached.1⟩

end Program

end Keyvisor.Foundation
