import Keyvisor.Foundation.Program

/-!
# Completion within a number of questions

A program completes within a number of questions when, whatever it is answered
among the answers that may be given, it has come to its end after that many of them
at most. The ends satisfy a postcondition. Bounds add up along sequencing.
-/

namespace Keyvisor.Foundation.Program

universe u

variable {Operation : Type} {Answer : Operation → Type} {α β : Type u}

/-- At most `questions` more are asked, and the end satisfies `post`. -/
def Completes (given : Exchange Operation Answer → Prop) :
    Nat → Program Operation Answer α → (α → Prop) → Prop
  | _, done value, post => post value
  | 0, ask _ _, _ => False
  | questions + 1, ask operation next, post =>
    ∀ answer, given ⟨operation, answer⟩ → Completes given questions (next answer) post

variable {given : Exchange Operation Answer → Prop}

/-- A finished program completes without a question. -/
theorem completes_done {questions : Nat} {value : α} {post : α → Prop} (holds : post value) :
    Completes given questions (done value) post := by
  cases questions <;> exact holds

/-- What is left of a program after one answer completes with one question less. -/
theorem Completes.next {questions : Nat} {operation : Operation}
    {continuation : Answer operation → Program Operation Answer α} {post : α → Prop}
    (completes : Completes given questions (ask operation continuation) post) (answer : Answer operation)
    (admissible : given ⟨operation, answer⟩) :
    ∃ fewer, questions = fewer + 1 ∧ Completes given fewer (continuation answer) post := by
  cases questions with
  | zero => exact completes.elim
  | succ fewer => exact ⟨fewer, rfl, completes answer admissible⟩

/-- More questions and a weaker conclusion are completed too. -/
theorem Completes.weaken {questions more : Nat} {program : Program Operation Answer α} {strong weak : α → Prop}
    (completes : Completes given questions program strong) (enough : questions ≤ more)
    (implies : ∀ value, strong value → weak value) : Completes given more program weak := by
  induction program generalizing questions more with
  | done value =>
    have holds : strong value := by cases questions <;> exact completes
    exact completes_done (implies value holds)
  | ask operation next inductionHypothesis =>
    cases questions with
    | zero => exact completes.elim
    | succ fewer =>
      obtain ⟨rest, rfl⟩ := Nat.exists_eq_add_of_le' (Nat.le_trans (Nat.le_add_left 1 fewer) enough)
      intro answer admissible
      exact inductionHypothesis answer (completes answer admissible) (Nat.le_of_succ_le_succ enough)

/-- A sequence asks the questions of its parts. -/
theorem Completes.bind {first second : Nat} {program : Program Operation Answer α}
    {next : α → Program Operation Answer β} {post : β → Prop}
    (completes : Completes given first program fun value => Completes given second (next value) post) :
    Completes given (first + second) (program >>= next) post := by
  show Completes given (first + second) (program.bind next) post
  induction program generalizing first with
  | done value =>
    have rest : Completes given second (next value) post := by cases first <;> exact completes
    exact rest.weaken (Nat.le_add_left second first) fun _ holds => holds
  | ask operation continuation inductionHypothesis =>
    cases first with
    | zero => exact completes.elim
    | succ fewer =>
      rw [Nat.succ_add]
      intro answer admissible
      exact inductionHypothesis answer (completes answer admissible)

/-- A program completes as a part of a wider one. -/
theorem Completes.translate {Wider : Type} {Reply : Wider → Type} {inject : Operation → Wider}
    {recover : (operation : Operation) → Reply (inject operation) → Answer operation}
    {wider : Exchange Wider Reply → Prop}
    (admissible : ∀ operation reply, wider ⟨inject operation, reply⟩ → given ⟨operation, recover operation reply⟩)
    {questions : Nat} {program : Program Operation Answer α} {post : α → Prop}
    (completes : Completes given questions program post) :
    Completes wider questions (program.translate inject recover) post := by
  induction program generalizing questions with
  | done value =>
    have holds : post value := by cases questions <;> exact completes
    exact completes_done holds
  | ask operation next inductionHypothesis =>
    cases questions with
    | zero => exact completes.elim
    | succ fewer =>
      intro reply offered
      exact inductionHypothesis _ (completes _ (admissible operation reply offered))

variable {ε : Type u}

/-- The same for a fallible sequence, whose rest runs only after a success. -/
theorem Completes.routine {first second : Nat} {routine : ExceptT ε (Program Operation Answer) α}
    {next : α → ExceptT ε (Program Operation Answer) β} {post : Except ε β → Prop}
    (fails : ∀ error, post (.error error))
    (completes : Completes given first routine.run fun outcome =>
      ∀ value, outcome = .ok value → Completes given second (next value).run post) :
    Completes given (first + second) (routine >>= next).run post := by
  refine Completes.bind (completes.weaken (Nat.le_refl first) ?_)
  intro outcome rest
  cases outcome with
  | ok value => exact rest value rfl
  | error error => exact completes_done (fails error)

/-- A check asks nothing, and what follows it may rely on its success. -/
theorem completes_checked {questions : Nat} {check : Except ε α} {next : α → ExceptT ε (Program Operation Answer) β}
    {post : Except ε β → Prop} (fails : ∀ error, post (.error error))
    (rest : ∀ value, check = .ok value → Completes given questions (next value).run post) :
    Completes given questions ((liftM check : ExceptT ε (Program Operation Answer) α) >>= next).run post := by
  cases check with
  | ok value => exact rest value rfl
  | error error => exact completes_done (fails error)

/-- An observed program is followed by the rest. -/
theorem completes_observed {first second : Nat} {program : Program Operation Answer α}
    {next : α → ExceptT ε (Program Operation Answer) β} {post : Except ε β → Prop}
    (fails : ∀ error, post (.error error))
    (completes : Completes given first program fun value => Completes given second (next value).run post) :
    Completes given (first + second) ((liftM program : ExceptT ε (Program Operation Answer) α) >>= next).run post := by
  apply Completes.routine fails
  have ends : Completes given first program fun value => Completes given 0
      (done (Except.ok value) : Program Operation Answer (Except ε α)) fun outcome =>
        ∀ reached, outcome = .ok reached → Completes given second (next reached).run post := by
    refine completes.weaken (Nat.le_refl first) ?_
    rintro value rest _ ⟨⟩
    exact rest
  exact ends.bind

/-- A demanded answer is one question, followed by the rest. -/
theorem completes_demanded {δ : Type u} {questions : Nat} {report : ε → δ}
    {program : Program Operation Answer (Except ε α)} {next : α → ExceptT δ (Program Operation Answer) β}
    {post : Except δ β → Prop} (fails : ∀ error, post (.error error))
    (completes : Completes given 1 program fun outcome =>
      ∀ value, outcome = .ok value → Completes given questions (next value).run post) :
    Completes given (questions + 1) (demand report program >>= next).run post := by
  rw [Nat.add_comm]
  apply Completes.routine fails
  have ends : Completes given 1 program fun outcome => Completes given 0
      (done (outcome.mapError report) : Program Operation Answer (Except δ α)) fun outcome =>
        ∀ reached, outcome = .ok reached → Completes given questions (next reached).run post := by
    refine completes.weaken (Nat.le_refl 1) ?_
    intro outcome rest
    cases outcome with
    | ok value =>
      rintro _ ⟨⟩
      exact rest value rfl
    | error error =>
      intro _ impossible
      cases impossible
  exact ends.bind

/-- A single question. -/
theorem completes_call {operation : Operation} {post : Answer operation → Prop}
    (holds : ∀ answer, given ⟨operation, answer⟩ → post answer) :
    Completes given 1 (call operation) post :=
  fun answer admissible => holds answer admissible

end Keyvisor.Foundation.Program
