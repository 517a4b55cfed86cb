import Keyvisor.Foundation.Program

/-!
# Monitors of open programs

A monitor is an automaton over exchanges that refuses an exchange by having no
next state. A program complies with a monitor from a state when no answer of the
environment can make the program ask something that the monitor refuses, and when
every end of the program satisfies a postcondition on the monitor's state.

Compliance composes along sequencing, so it is established part by part. It says
of every transcript, complete or not, that the monitor accepts it.
-/

namespace Keyvisor.Foundation.Program

universe u

variable {Operation : Type} {Answer : Operation → Type} {α β : Type u} {σ : Type}

/-- Acceptance of a whole transcript. -/
def accepts (monitor : σ → Exchange Operation Answer → Option σ) (state : σ) :
    List (Exchange Operation Answer) → Option σ
  | [] => some state
  | exchange :: rest =>
    match monitor state exchange with
    | some next => accepts monitor next rest
    | none => none

/-- One more exchange is one more step of the monitor. -/
theorem accepts_concat {monitor : σ → Exchange Operation Answer → Option σ} {start state next : σ}
    {transcript : List (Exchange Operation Answer)} {exchange : Exchange Operation Answer}
    (accepted : accepts monitor start transcript = some state) (advanced : monitor state exchange = some next) :
    accepts monitor start (transcript ++ [exchange]) = some next := by
  induction transcript generalizing start with
  | nil =>
    cases accepted
    simp only [List.nil_append, accepts, advanced]
  | cons first rest inductionHypothesis =>
    simp only [accepts] at accepted
    split at accepted
    · rename_i middle taken
      simp only [List.cons_append, accepts, taken]
      exact inductionHypothesis accepted
    · cases accepted

/-- A transcript in two parts. -/
theorem accepts_append (monitor : σ → Exchange Operation Answer → Option σ) (state : σ)
    (first second : List (Exchange Operation Answer)) :
    accepts monitor state (first ++ second) = (accepts monitor state first).bind (accepts monitor · second) := by
  induction first generalizing state with
  | nil => rfl
  | cons exchange rest inductionHypothesis =>
    simp only [List.cons_append, accepts]
    cases monitor state exchange with
    | none => rfl
    | some next => exact inductionHypothesis next

/-- An exchange of an accepted transcript is a step from where the earlier ones lead. -/
theorem accepts_at {monitor : σ → Exchange Operation Answer → Option σ} {start final : σ}
    {earlier later : List (Exchange Operation Answer)} {exchange : Exchange Operation Answer}
    (accepted : accepts monitor start (earlier ++ exchange :: later) = some final) :
    ∃ state next, accepts monitor start earlier = some state ∧ monitor state exchange = some next := by
  rw [accepts_append] at accepted
  obtain ⟨state, reached, continued⟩ := Option.bind_eq_some_iff.mp accepted
  simp only [accepts] at continued
  split at continued
  · rename_i next taken
    exact ⟨state, next, reached, taken⟩
  · cases continued

/-- What every accepted exchange keeps is true of every accepted transcript. -/
theorem accepts_invariant {monitor : σ → Exchange Operation Answer → Option σ}
    (invariant : σ → List (Exchange Operation Answer) → Prop) {start final : σ}
    {transcript : List (Exchange Operation Answer)} (holds : invariant start [])
    (kept : ∀ state next exchange earlier, invariant state earlier → monitor state exchange = some next →
      invariant next (earlier ++ [exchange]))
    (accepted : accepts monitor start transcript = some final) : invariant final transcript := by
  suffices general : ∀ (rest earlier : List (Exchange Operation Answer)) (state : σ),
      invariant state earlier → accepts monitor state rest = some final → invariant final (earlier ++ rest) by
    exact general transcript [] start holds accepted
  intro rest
  induction rest with
  | nil =>
    intro earlier state reached ended
    cases ended
    simpa using reached
  | cons first later inductionHypothesis =>
    intro earlier state reached continued
    simp only [accepts] at continued
    split at continued
    · rename_i middle taken
      have extended := inductionHypothesis (earlier ++ [first]) middle
        (kept state middle first earlier reached taken) continued
      simpa using extended
    · cases continued

variable (monitor : σ → Exchange Operation Answer → Option σ)

/-- Whatever is answered, the monitor accepts, and the end satisfies `post`. -/
def Complies (state : σ) : Program Operation Answer α → (σ → α → Prop) → Prop
  | done value, post => post state value
  | ask operation next, post => ∀ answer, ∃ reached,
      monitor state ⟨operation, answer⟩ = some reached ∧ Complies reached (next answer) post

variable {monitor}

/-- A transcript is accepted, and what remains complies from the state reached. -/
theorem Complies.of_follows {state : σ} {program remaining : Program Operation Answer α}
    {post : σ → α → Prop} {transcript : List (Exchange Operation Answer)}
    (complies : Complies monitor state program post) (followed : Follows program transcript remaining) :
    ∃ reached, accepts monitor state transcript = some reached ∧ Complies monitor reached remaining post := by
  induction followed generalizing state with
  | stop program => exact ⟨state, rfl, complies⟩
  | step operation next answer rest remaining tail inductionHypothesis =>
    obtain ⟨middle, advanced, continues⟩ := complies answer
    obtain ⟨reached, accepted, left⟩ := inductionHypothesis continues
    exact ⟨reached, by simp only [accepts, advanced, accepted], left⟩

/-- A finished transcript ends in the postcondition. -/
theorem Complies.of_follows_done {state : σ} {program : Program Operation Answer α} {value : α}
    {post : σ → α → Prop} {transcript : List (Exchange Operation Answer)}
    (complies : Complies monitor state program post) (followed : Follows program transcript (done value)) :
    ∃ reached, accepts monitor state transcript = some reached ∧ post reached value :=
  complies.of_follows followed

/-- A weaker conclusion is complied with too. -/
theorem Complies.weaken {state : σ} {program : Program Operation Answer α} {weak strong : σ → α → Prop}
    (complies : Complies monitor state program strong)
    (implies : ∀ reached value, strong reached value → weak reached value) :
    Complies monitor state program weak := by
  induction program generalizing state with
  | done value => exact implies state value complies
  | ask operation next inductionHypothesis =>
    intro answer
    obtain ⟨reached, advanced, continues⟩ := complies answer
    exact ⟨reached, advanced, inductionHypothesis answer continues⟩

/-- A program that asks only what the monitor ignores leaves it where it is. -/
theorem Issues.complies {allowed : Operation → Prop} {state : σ} {program : Program Operation Answer α}
    (issues : program.Issues allowed)
    (ignored : ∀ operation answer, allowed operation → monitor state ⟨operation, answer⟩ = some state) :
    Complies monitor state program fun reached _ => reached = state := by
  induction program with
  | done value => exact rfl
  | ask operation next inductionHypothesis =>
    intro answer
    exact ⟨state, ignored operation answer issues.1, inductionHypothesis answer (issues.2 answer)⟩

/-- A sequence complies when its rest does from every end of its first part. -/
theorem Complies.bind {state : σ} {program : Program Operation Answer α}
    {next : α → Program Operation Answer β} {post : σ → β → Prop}
    (complies : Complies monitor state program fun reached value => Complies monitor reached (next value) post) :
    Complies monitor state (program >>= next) post := by
  show Complies monitor state (program.bind next) post
  induction program generalizing state with
  | done value => exact complies
  | ask operation continuation inductionHypothesis =>
    intro answer
    obtain ⟨reached, advanced, continues⟩ := complies answer
    exact ⟨reached, advanced, inductionHypothesis answer continues⟩

/-- A program complies as a part of a wider one when its monitor says of its own
exchanges what the wider monitor says, whose states include its own. -/
theorem Complies.embed {τ Wider : Type} {Reply : Wider → Type} {inject : Operation → Wider}
    {recover : (operation : Operation) → Reply (inject operation) → Answer operation}
    {wider : τ → Exchange Wider Reply → Option τ} (place : σ → τ)
    (agrees : ∀ state operation reply,
      wider (place state) ⟨inject operation, reply⟩ = (monitor state ⟨operation, recover operation reply⟩).map place)
    {state : σ} {program : Program Operation Answer α} {post : τ → α → Prop}
    (complies : Complies monitor state program fun reached value => post (place reached) value) :
    Complies wider (place state) (program.translate inject recover) post := by
  induction program generalizing state with
  | done value => exact complies
  | ask operation next inductionHypothesis =>
    intro reply
    obtain ⟨reached, advanced, continues⟩ := complies (recover operation reply)
    exact ⟨place reached, by rw [agrees, advanced]; rfl, inductionHypothesis _ continues⟩

/-- The same with one set of states. -/
theorem Complies.translate {Wider : Type} {Reply : Wider → Type} {inject : Operation → Wider}
    {recover : (operation : Operation) → Reply (inject operation) → Answer operation}
    {wider : σ → Exchange Wider Reply → Option σ}
    (agrees : ∀ state operation reply,
      wider state ⟨inject operation, reply⟩ = monitor state ⟨operation, recover operation reply⟩)
    {state : σ} {program : Program Operation Answer α} {post : σ → α → Prop}
    (complies : Complies monitor state program post) :
    Complies wider state (program.translate inject recover) post :=
  complies.embed id fun state operation reply => by rw [Option.map_id]; exact agrees state operation reply

/-- Where every operation is a program that keeps its own monitor in step with the given
one, the expanded program ends in step with it. -/
theorem Complies.expand {τ Inner : Type} {Reply : Inner → Type} {α : Type} {program : Program Operation Answer α}
    {implement : (operation : Operation) → Program Inner Reply (Answer operation)}
    {inner : τ → Exchange Inner Reply → Option τ} (relates : σ → τ → Prop)
    (inStep : ∀ state place operation, relates state place →
      (∀ answer, ∃ reached, monitor state ⟨operation, answer⟩ = some reached) →
      Complies inner place (implement operation) fun after answer =>
        ∃ reached, monitor state ⟨operation, answer⟩ = some reached ∧ relates reached after)
    {state : σ} {place : τ} {post : σ → α → Prop} (complies : Complies monitor state program post)
    (related : relates state place) :
    Complies inner place (program.expand implement) fun after value =>
      ∃ reached, relates reached after ∧ post reached value := by
  induction program generalizing state place with
  | done value => exact ⟨state, related, complies⟩
  | ask operation next inductionHypothesis =>
    have accepted (answer : Answer operation) : ∃ reached, monitor state ⟨operation, answer⟩ = some reached :=
      (complies answer).imp fun _ both => both.1
    refine Complies.bind ((inStep state place operation related accepted).weaken ?_)
    rintro after answer ⟨reached, advanced, stays⟩
    obtain ⟨middle, same, continues⟩ := complies answer
    obtain rfl := Option.some.inj (advanced.symm.trans same)
    exact inductionHypothesis answer continues stays

variable {ε δ : Type u}

/-- What an outcome owes to the rest of a fallible sequence: a value continues and
an error ends. -/
def Continues (monitor : σ → Exchange Operation Answer → Option σ)
    (next : α → ExceptT ε (Program Operation Answer) β) (post : σ → Except ε β → Prop) (state : σ) :
    Except ε α → Prop
  | .ok value => Complies monitor state (next value).run post
  | .error error => post state (.error error)

/-- After a success the next routine goes on. -/
theorem continues_ok {next : α → ExceptT ε (Program Operation Answer) β} {post : σ → Except ε β → Prop}
    {state : σ} {value : α} (complies : Complies monitor state (next value).run post) :
    Continues monitor next post state (.ok value) := complies

/-- A sequence complies when its second part continues the first. -/
theorem Complies.routine {state : σ} {routine : ExceptT ε (Program Operation Answer) α}
    {next : α → ExceptT ε (Program Operation Answer) β} {post : σ → Except ε β → Prop}
    (complies : Complies monitor state routine.run (Continues monitor next post)) :
    Complies monitor state (routine >>= next).run post := by
  refine Complies.bind (complies.weaken ?_)
  intro reached outcome continues
  cases outcome <;> exact continues

/-- A lifted check decides at once. -/
theorem complies_check {state : σ} {check : Except ε α} {post : σ → Except ε α → Prop}
    (holds : post state check) :
    Complies monitor state (liftM check : ExceptT ε (Program Operation Answer) α).run post := by
  cases check <;> exact holds

/-- An observed program ends in a success. -/
theorem complies_observed {state : σ} {program : Program Operation Answer α} {post : σ → Except ε α → Prop}
    (complies : Complies monitor state program fun reached value => post reached (.ok value)) :
    Complies monitor state (liftM program : ExceptT ε (Program Operation Answer) α).run post :=
  Complies.bind (β := Except ε α) complies

/-- Renaming errors renames them in the postcondition. -/
theorem complies_adapt {state : σ} {report : ε → δ} {routine : ExceptT ε (Program Operation Answer) α}
    {post : σ → Except δ α → Prop}
    (complies : Complies monitor state routine.run fun reached outcome =>
      post reached (outcome.mapError report)) :
    Complies monitor state (ExceptT.adapt report routine).run post :=
  Complies.bind (β := Except δ α) complies

/-- A demanded answer is reported in the postcondition. -/
theorem complies_demand {state : σ} {report : ε → δ} {program : Program Operation Answer (Except ε α)}
    {post : σ → Except δ α → Prop}
    (complies : Complies monitor state program fun reached outcome => post reached (outcome.mapError report)) :
    Complies monitor state (demand report program).run post :=
  complies_adapt complies

/-- A single question complies when every answer is accepted. -/
theorem complies_call {state : σ} {operation : Operation} {post : σ → Answer operation → Prop}
    (holds : ∀ answer, ∃ reached, monitor state ⟨operation, answer⟩ = some reached ∧ post reached answer) :
    Complies monitor state (call operation) post := holds

end Keyvisor.Foundation.Program
