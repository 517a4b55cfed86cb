import Mathlib.Logic.Basic

/-!
# Programs that ask their environment

A program either is done or asks one operation and continues with the answer.
Sequencing is substitution at the end, so ordinary `do` blocks build programs;
a fallible routine is a program under `ExceptT`.

Two meanings are given. `Follows` is the open one: the environment answers as it
likes, and a transcript records every operation with its answer. `run` is the
closed one: a handler answers from a state and updates it. Both are executable,
and both are computed along sequencing.
-/

namespace Keyvisor.Foundation

universe u

/-- A finite tree of questions with a continuation for every answer. -/
inductive Program (Operation : Type) (Answer : Operation → Type) (α : Type u) where
  | done (value : α)
  | ask (operation : Operation) (next : Answer operation → Program Operation Answer α)

namespace Program

variable {Operation : Type} {Answer : Operation → Type} {α β : Type u} {σ : Type}

/-- Continue with `next` wherever the program is done. -/
def bind (program : Program Operation Answer α) (next : α → Program Operation Answer β) :
    Program Operation Answer β :=
  match program with
  | done value => next value
  | ask operation rest => ask operation fun answer => (rest answer).bind next

instance : Monad (Program Operation Answer) where
  pure := done
  bind := bind

/-- Ask one operation and return its answer. -/
def call (operation : Operation) : Program Operation Answer (Answer operation) :=
  ask operation done

/-- Ask for something that may fail and report the failure. -/
def demand {ε δ : Type u} (report : ε → δ) (program : Program Operation Answer (Except ε α)) :
    ExceptT δ (Program Operation Answer) α :=
  ExceptT.adapt report (ExceptT.mk program)

/-- A program as a part of one that asks more operations. -/
def translate {Wider : Type} {Reply : Wider → Type} (inject : Operation → Wider)
    (recover : (operation : Operation) → Reply (inject operation) → Answer operation) :
    Program Operation Answer α → Program Wider Reply α
  | done value => done value
  | ask operation next => ask (inject operation) fun reply => (next (recover operation reply)).translate inject recover

/-- A program whose operations are themselves programs over other operations. -/
def expand {α Inner : Type} {Reply : Inner → Type}
    (implement : (operation : Operation) → Program Inner Reply (Answer operation)) :
    Program Operation Answer α → Program Inner Reply α
  | done value => done value
  | ask operation next => (implement operation).bind fun answer => (next answer).expand implement

/-- Nothing is left to ask. -/
def finished : Program Operation Answer α → Bool
  | done _ => true
  | ask _ _ => false

/-- One operation with the answer it received. -/
abbrev Exchange (Operation : Type) (Answer : Operation → Type) :=
  (operation : Operation) × Answer operation

/-- The remaining program after a transcript of exchanges, if the program asks
exactly the recorded operations. -/
def follow [DecidableEq Operation] (program : Program Operation Answer α) :
    List (Exchange Operation Answer) → Option (Program Operation Answer α)
  | [] => some program
  | ⟨asked, answer⟩ :: rest =>
    match program with
    | done _ => none
    | ask operation next =>
      if same : asked = operation then (next (same ▸ answer)).follow rest else none

/-- The environment may answer each question in turn as the transcript records. -/
inductive Follows : Program Operation Answer α → List (Exchange Operation Answer) →
    Program Operation Answer α → Prop where
  | stop (program : Program Operation Answer α) : Follows program [] program
  | step (operation : Operation) (next : Answer operation → Program Operation Answer α)
      (answer : Answer operation) (rest : List (Exchange Operation Answer))
      (remaining : Program Operation Answer α) (tail : Follows (next answer) rest remaining) :
      Follows (ask operation next) (⟨operation, answer⟩ :: rest) remaining

/-- The executable meaning is the relational one. -/
theorem follow_eq_some [DecidableEq Operation] (program remaining : Program Operation Answer α)
    (transcript : List (Exchange Operation Answer)) :
    program.follow transcript = some remaining ↔ Follows program transcript remaining := by
  induction transcript generalizing program with
  | nil =>
    simp only [follow, Option.some.injEq]
    constructor
    · rintro rfl
      exact .stop _
    · intro followed
      cases followed
      rfl
  | cons exchange rest inductionHypothesis =>
    obtain ⟨asked, answer⟩ := exchange
    cases program with
    | done value =>
      constructor
      · intro impossible
        cases impossible
      · intro followed
        cases followed
    | ask operation next =>
      by_cases same : asked = operation
      · subst same
        simp only [follow, ↓reduceDIte, inductionHypothesis]
        constructor
        · exact .step _ _ _ _ _
        · intro followed
          cases followed
          assumption
      · simp only [follow, same, ↓reduceDIte, reduceCtorEq, false_iff]
        intro followed
        cases followed
        exact same rfl

/-- A finished program has only the empty transcript. -/
@[simp] theorem follows_done (value : α) (transcript : List (Exchange Operation Answer))
    (remaining : Program Operation Answer α) :
    Follows (done value) transcript remaining ↔ transcript = [] ∧ remaining = done value := by
  constructor
  · intro followed
    cases followed
    exact ⟨rfl, rfl⟩
  · rintro ⟨rfl, rfl⟩
    exact .stop _

/-- A question is either still open or answered first. -/
theorem follows_ask (operation : Operation) (next : Answer operation → Program Operation Answer α)
    (transcript : List (Exchange Operation Answer)) (remaining : Program Operation Answer α) :
    Follows (ask operation next) transcript remaining ↔
      (transcript = [] ∧ remaining = ask operation next) ∨
        ∃ answer rest, transcript = ⟨operation, answer⟩ :: rest ∧ Follows (next answer) rest remaining := by
  constructor
  · intro followed
    cases followed with
    | stop => exact .inl ⟨rfl, rfl⟩
    | step _ _ answer rest _ tail => exact .inr ⟨answer, rest, rfl, tail⟩
  · rintro (⟨rfl, rfl⟩ | ⟨answer, rest, rfl, tail⟩)
    · exact .stop _
    · exact .step _ _ _ _ _ tail

/-- Transcripts extend at their end by one further answer. -/
theorem Follows.snoc {program : Program Operation Answer α}
    {transcript : List (Exchange Operation Answer)} {operation : Operation}
    {next : Answer operation → Program Operation Answer α}
    (followed : Follows program transcript (ask operation next)) (answer : Answer operation) :
    Follows program (transcript ++ [⟨operation, answer⟩]) (next answer) := by
  generalize remains : ask operation next = remaining at followed
  induction followed with
  | stop program =>
    subst remains
    exact .step _ _ _ _ _ (.stop _)
  | step asked rest reply tail final followed inductionHypothesis =>
    exact .step _ _ _ _ _ (inductionHypothesis remains)

/-- A transcript of a sequence stays within its first part or completes it and
continues with the rest. -/
theorem follows_bind (program : Program Operation Answer α) (next : α → Program Operation Answer β)
    (transcript : List (Exchange Operation Answer)) (remaining : Program Operation Answer β) :
    Follows (program >>= next) transcript remaining ↔
      (∃ left, Follows program transcript left ∧ remaining = left >>= next) ∨
        ∃ first value rest, transcript = first ++ rest ∧ Follows program first (done value) ∧
          Follows (next value) rest remaining := by
  show Follows (program.bind next) transcript remaining ↔
    (∃ left, Follows program transcript left ∧ remaining = left.bind next) ∨ _
  induction program generalizing transcript with
  | done value =>
    constructor
    · intro followed
      exact .inr ⟨[], value, transcript, rfl, .stop _, followed⟩
    · rintro (⟨left, stopped, rfl⟩ | ⟨first, other, rest, rfl, stopped, followed⟩)
      · obtain ⟨rfl, rfl⟩ := (follows_done _ _ _).mp stopped
        exact .stop _
      · obtain ⟨rfl, same⟩ := (follows_done _ _ _).mp stopped
        cases same
        exact followed
  | ask operation continuation inductionHypothesis =>
    constructor
    · intro followed
      rcases (follows_ask _ _ _ _).mp followed with ⟨rfl, rfl⟩ | ⟨answer, rest, rfl, tail⟩
      · exact .inl ⟨_, .stop _, rfl⟩
      · rcases (inductionHypothesis answer rest).mp tail with
          ⟨left, within, rfl⟩ | ⟨first, value, later, rfl, ended, followed⟩
        · exact .inl ⟨left, .step _ _ _ _ _ within, rfl⟩
        · exact .inr ⟨_ :: first, value, later, rfl, .step _ _ _ _ _ ended, followed⟩
    · rintro (⟨left, within, rfl⟩ | ⟨first, value, rest, rfl, ended, followed⟩)
      · rcases (follows_ask _ _ _ _).mp within with ⟨rfl, rfl⟩ | ⟨answer, rest, rfl, tail⟩
        · exact .stop _
        · exact .step _ _ _ _ _ ((inductionHypothesis answer rest).mpr (.inl ⟨left, tail, rfl⟩))
      · rcases (follows_ask _ _ _ _).mp ended with ⟨_, impossible⟩ | ⟨answer, later, rfl, tail⟩
        · cases impossible
        · exact .step _ _ _ _ _
            ((inductionHypothesis answer _).mpr (.inr ⟨later, value, rest, rfl, tail, followed⟩))

/-- A complete transcript of a fallible sequence completes its first part and,
unless that part fails, the rest. -/
theorem follows_routine {ε : Type u} {routine : ExceptT ε (Program Operation Answer) α}
    {next : α → ExceptT ε (Program Operation Answer) β} {transcript : List (Exchange Operation Answer)}
    {result : Except ε β} (followed : Follows (routine >>= next).run transcript (done result)) :
    ∃ first outcome rest, transcript = first ++ rest ∧ Follows routine.run first (done outcome) ∧
      match outcome with
      | .ok value => Follows (next value).run rest (done result)
      | .error error => rest = [] ∧ result = .error error := by
  have split : Follows (routine.run >>= ExceptT.bindCont next) transcript (done result) := followed
  rcases (follows_bind _ _ _ _).mp split with ⟨left, within, same⟩ | ⟨first, outcome, rest, rfl, ended, later⟩
  · cases left with
    | ask operation continuation => cases same
    | done outcome =>
      refine ⟨transcript, outcome, [], (List.append_nil _).symm, within, ?_⟩
      cases outcome with
      | ok value =>
        have ends : (next value).run = done result := same.symm
        show Follows (next value).run [] (done result)
        rw [ends]
        exact .stop _
      | error error =>
        cases same
        exact ⟨rfl, rfl⟩
  · refine ⟨first, outcome, rest, rfl, ended, ?_⟩
    cases outcome with
    | ok value => exact later
    | error error =>
      obtain ⟨rfl, same⟩ := (follows_done _ _ _).mp later
      cases same
      exact ⟨rfl, rfl⟩

/-- A single question is answered once. -/
theorem follows_call (operation : Operation) (answer : Answer operation)
    (transcript : List (Exchange Operation Answer)) :
    Follows (call operation) transcript (done answer) ↔ transcript = [⟨operation, answer⟩] := by
  constructor
  · intro followed
    rcases (follows_ask _ _ _ _).mp followed with ⟨_, impossible⟩ | ⟨given, rest, rfl, tail⟩
    · cases impossible
    · obtain ⟨rfl, same⟩ := (follows_done _ _ _).mp tail
      cases same
      rfl
  · rintro rfl
    exact .step _ _ _ _ _ (.stop _)

/-- A lifted check asks nothing. -/
theorem follows_check {ε : Type u} (check : Except ε α) (transcript : List (Exchange Operation Answer))
    (outcome : Except ε α) :
    Follows (liftM check : ExceptT ε (Program Operation Answer) α).run transcript (done outcome) ↔
      transcript = [] ∧ outcome = check := by
  have settled : (liftM check : ExceptT ε (Program Operation Answer) α).run = done check := by
    cases check <;> rfl
  rw [settled, follows_done]
  simp

/-- A program whose value is mapped at the end. -/
theorem follows_map (program : Program Operation Answer α) (function : α → β)
    (transcript : List (Exchange Operation Answer)) (final : β) :
    Follows (program >>= fun value => done (function value)) transcript (done final) ↔
      ∃ value, final = function value ∧ Follows program transcript (done value) := by
  rw [follows_bind]
  constructor
  · rintro (⟨left, within, same⟩ | ⟨first, value, rest, rfl, ended, later⟩)
    · cases left with
      | ask operation next => cases same
      | done value =>
        cases same
        exact ⟨value, rfl, within⟩
    · obtain ⟨rfl, same⟩ := (follows_done _ _ _).mp later
      cases same
      exact ⟨value, rfl, by rwa [List.append_nil]⟩
  · rintro ⟨value, rfl, followed⟩
    exact .inl ⟨done value, followed, rfl⟩

/-- An observed program ends in its own value. -/
theorem follows_observed {ε : Type u} (program : Program Operation Answer α)
    (transcript : List (Exchange Operation Answer)) (outcome : Except ε α) :
    Follows (liftM program : ExceptT ε (Program Operation Answer) α).run transcript (done outcome) ↔
      ∃ value, outcome = .ok value ∧ Follows program transcript (done value) :=
  follows_map program Except.ok transcript outcome

/-- Renaming the error of a routine renames it in the outcome. -/
theorem follows_adapt {ε δ : Type u} (report : ε → δ) (routine : ExceptT ε (Program Operation Answer) α)
    (transcript : List (Exchange Operation Answer)) (outcome : Except δ α) :
    Follows (ExceptT.adapt report routine).run transcript (done outcome) ↔
      ∃ inner, outcome = inner.mapError report ∧ Follows routine.run transcript (done inner) :=
  follows_map routine.run (Except.mapError report) transcript outcome

/-- Every operation that the program can ask is allowed. -/
def Issues (allowed : Operation → Prop) : Program Operation Answer α → Prop
  | done _ => True
  | ask operation next => allowed operation ∧ ∀ answer, (next answer).Issues allowed

/-- A transcript records only operations that the program can ask. -/
theorem Issues.of_follows {allowed : Operation → Prop} {program remaining : Program Operation Answer α}
    {transcript : List (Exchange Operation Answer)} (issues : program.Issues allowed)
    (followed : Follows program transcript remaining) :
    ∀ exchange ∈ transcript, allowed exchange.1 := by
  induction followed with
  | stop program => nofun
  | step operation next answer rest remaining tail inductionHypothesis =>
    intro exchange member
    rcases List.mem_cons.mp member with rfl | later
    · exact issues.1
    · exact inductionHypothesis (issues.2 answer) exchange later

/-- A sequence issues what its parts issue. -/
theorem Issues.bind {allowed : Operation → Prop} {program : Program Operation Answer α}
    {next : α → Program Operation Answer β} (first : program.Issues allowed)
    (rest : ∀ value, (next value).Issues allowed) : (program >>= next).Issues allowed := by
  show (program.bind next).Issues allowed
  induction program with
  | done value => exact rest value
  | ask operation continuation inductionHypothesis =>
    exact ⟨first.1, fun answer => inductionHypothesis answer (first.2 answer)⟩

/-- The same for a fallible sequence, whose rest runs only after a success. -/
theorem Issues.routine {ε : Type u} {allowed : Operation → Prop}
    {routine : ExceptT ε (Program Operation Answer) α} {next : α → ExceptT ε (Program Operation Answer) β}
    (first : routine.run.Issues allowed) (rest : ∀ value, (next value).run.Issues allowed) :
    (routine >>= next).run.Issues allowed := by
  refine Issues.bind first fun outcome => ?_
  cases outcome with
  | ok value => exact rest value
  | error error => trivial

/-- A call issues its own operation. -/
theorem issues_call {allowed : Operation → Prop} {operation : Operation} (permitted : allowed operation) :
    (call operation : Program Operation Answer _).Issues allowed := ⟨permitted, fun _ => trivial⟩

/-- A check issues nothing. -/
theorem issues_check {ε : Type u} (allowed : Operation → Prop) (check : Except ε α) :
    (liftM check : ExceptT ε (Program Operation Answer) α).run.Issues allowed := by
  cases check <;> trivial

/-- An observed program issues the same operations. -/
theorem issues_observed {ε : Type u} {allowed : Operation → Prop} {program : Program Operation Answer α}
    (issues : program.Issues allowed) :
    (liftM program : ExceptT ε (Program Operation Answer) α).run.Issues allowed :=
  Issues.bind (β := Except ε α) issues fun _ => trivial

/-- A translated error changes no operation. -/
theorem issues_adapt {ε δ : Type u} {allowed : Operation → Prop} (report : ε → δ)
    {routine : ExceptT ε (Program Operation Answer) α} (issues : routine.run.Issues allowed) :
    (ExceptT.adapt report routine).run.Issues allowed :=
  Issues.bind (β := Except δ α) issues fun _ => trivial

/-- A program that is a part of a wider one asks its own operations there. -/
theorem Issues.translate {Wider : Type} {Reply : Wider → Type} {inject : Operation → Wider}
    {recover : (operation : Operation) → Reply (inject operation) → Answer operation} {allowed : Operation → Prop}
    {wider : Wider → Prop} {program : Program Operation Answer α} (issues : program.Issues allowed)
    (permitted : ∀ operation, allowed operation → wider (inject operation)) :
    (program.translate inject recover).Issues wider := by
  induction program with
  | done value => trivial
  | ask operation next inductionHypothesis =>
    exact ⟨permitted operation issues.1, fun reply => inductionHypothesis _ (issues.2 _)⟩

/-- Every program issues some operations. -/
theorem issues_any (program : Program Operation Answer α) : program.Issues fun _ => True := by
  induction program with
  | done value => trivial
  | ask operation next inductionHypothesis => exact ⟨trivial, inductionHypothesis⟩

/-- The same when all operations are allowed there. -/
theorem issues_translate {Wider : Type} {Reply : Wider → Type} {inject : Operation → Wider}
    {recover : (operation : Operation) → Reply (inject operation) → Answer operation} {allowed : Wider → Prop}
    (permitted : ∀ operation, allowed (inject operation)) (program : Program Operation Answer α) :
    (program.translate inject recover).Issues allowed :=
  (issues_any program).translate fun operation _ => permitted operation

/-- Every operation that the program can ask is allowed, and every value that it can
end in is expected. -/
def Ensures (allowed : Operation → Prop) (expected : α → Prop) : Program Operation Answer α → Prop
  | done value => expected value
  | ask operation next => allowed operation ∧ ∀ answer, (next answer).Ensures allowed expected

/-- A sequence ensures what its second part ensures of the values of the first. -/
theorem Ensures.bind {allowed : Operation → Prop} {middle : α → Prop} {expected : β → Prop}
    {program : Program Operation Answer α} {next : α → Program Operation Answer β}
    (first : program.Ensures allowed middle) (rest : ∀ value, middle value → (next value).Ensures allowed expected) :
    (program >>= next).Ensures allowed expected := by
  show (program.bind next).Ensures allowed expected
  induction program with
  | done value => exact rest value first
  | ask operation continuation inductionHypothesis =>
    exact ⟨first.1, fun answer => inductionHypothesis answer (first.2 answer)⟩

/-- The same for a fallible sequence, whose rest runs only after a success. -/
theorem Ensures.routine {ε : Type u} {allowed : Operation → Prop} {middle : α → Prop} {expected : β → Prop}
    {routine : ExceptT ε (Program Operation Answer) α} {next : α → ExceptT ε (Program Operation Answer) β}
    (first : routine.run.Ensures allowed (fun outcome => ∀ value, outcome = .ok value → middle value))
    (rest : ∀ value, middle value →
      (next value).run.Ensures allowed (fun outcome => ∀ value, outcome = .ok value → expected value)) :
    (routine >>= next).run.Ensures allowed (fun outcome => ∀ value, outcome = .ok value → expected value) := by
  refine Ensures.bind first fun outcome ended => ?_
  cases outcome with
  | ok value => exact rest value (ended value rfl)
  | error error => exact fun value impossible => by cases impossible

/-- A weaker conclusion is ensured too. -/
theorem Ensures.weaken {allowed : Operation → Prop} {expected weaker : α → Prop}
    {program : Program Operation Answer α} (ensures : program.Ensures allowed expected)
    (implied : ∀ value, expected value → weaker value) : program.Ensures allowed weaker := by
  induction program with
  | done value => exact implied value ensures
  | ask operation next inductionHypothesis =>
    exact ⟨ensures.1, fun answer => inductionHypothesis answer (ensures.2 answer)⟩

/-- Answer every question from a state that the handler updates. -/
def run (handler : (operation : Operation) → σ → Answer operation × σ) :
    Program Operation Answer α → σ → α × σ
  | done value, state => (value, state)
  | ask operation next, state =>
    run handler (next (handler operation state).1) (handler operation state).2

variable (handler : (operation : Operation) → σ → Answer operation × σ)

/-- Running a sequence runs the first part and then the rest. -/
theorem run_bind (program : Program Operation Answer α) (next : α → Program Operation Answer β)
    (state : σ) :
    (program >>= next).run handler state =
      (next (program.run handler state).1).run handler (program.run handler state).2 := by
  show (program.bind next).run handler state = _
  induction program generalizing state with
  | done value => rfl
  | ask operation rest inductionHypothesis =>
    simp only [bind, run]
    exact inductionHypothesis _ _

/-- A program of operations that leave the state alone leaves it alone. -/
theorem Issues.run_unchanged {allowed : Operation → Prop} {program : Program Operation Answer α}
    (issues : program.Issues allowed)
    (keeps : ∀ operation state, allowed operation → (handler operation state).2 = state) (state : σ) :
    (program.run handler state).2 = state := by
  induction program generalizing state with
  | done value => rfl
  | ask operation next inductionHypothesis =>
    have first := keeps operation state issues.1
    rw [run, first]
    exact inductionHypothesis _ (issues.2 _) state

/-- The states a run passes through, from its first to its last. -/
def trail : Program Operation Answer α → σ → List σ
  | done _, state => [state]
  | ask operation next, state =>
    state :: trail (next (handler operation state).1) (handler operation state).2

/-- A run passes through its starting state. -/
theorem start_mem_trail (program : Program Operation Answer α) (state : σ) :
    state ∈ program.trail handler state := by
  cases program <;> simp [trail]

/-- A run passes through its final state. -/
theorem final_mem_trail (program : Program Operation Answer α) (state : σ) :
    (program.run handler state).2 ∈ program.trail handler state := by
  induction program generalizing state with
  | done value => simp [trail, run]
  | ask operation next inductionHypothesis =>
    exact List.mem_cons_of_mem _ (inductionHypothesis _ _)

/-- A sequence passes through the states of its first part and of its rest. -/
theorem mem_trail_bind (program : Program Operation Answer α) (next : α → Program Operation Answer β)
    (state visited : σ) :
    visited ∈ (program >>= next).trail handler state ↔ visited ∈ program.trail handler state ∨
      visited ∈ (next (program.run handler state).1).trail handler (program.run handler state).2 := by
  show visited ∈ (program.bind next).trail handler state ↔ _
  induction program generalizing state with
  | done value =>
    simp only [bind, trail, run, List.mem_singleton]
    constructor
    · exact .inr
    · rintro (rfl | passed)
      · exact start_mem_trail handler _ _
      · exact passed
  | ask operation rest inductionHypothesis =>
    simp only [bind, trail, run, List.mem_cons, inductionHypothesis, or_assoc]

/-- The result and final state of a fallible routine. -/
def execute {ε : Type u} (routine : ExceptT ε (Program Operation Answer) α) (state : σ) : Except ε α × σ :=
  routine.run.run handler state

variable {ε : Type u}

/-- A value is returned without a step. -/
@[simp] theorem execute_pure (value : α) (state : σ) :
    execute handler (pure value : ExceptT ε (Program Operation Answer) α) state = (.ok value, state) := rfl

/-- An error is returned without a step. -/
@[simp] theorem execute_throw (error : ε) (state : σ) :
    execute handler (throw error : ExceptT ε (Program Operation Answer) α) state = (.error error, state) := rfl

/-- A fallible sequence stops at the first error and keeps the state reached. -/
theorem execute_bind (routine : ExceptT ε (Program Operation Answer) α)
    (next : α → ExceptT ε (Program Operation Answer) β) (state : σ) :
    execute handler (routine >>= next) state = match execute handler routine state with
      | (.ok value, reached) => execute handler (next value) reached
      | (.error error, reached) => (.error error, reached) := by
  show (routine.run >>= ExceptT.bindCont next).run handler state = _
  rw [run_bind, execute]
  cases outcome : routine.run.run handler state with
  | mk result reached => cases result <;> rfl

/-- A fallible sequence passes through the states of its first part and, unless
that part fails, through those of its rest. -/
theorem mem_trail_execute_bind (routine : ExceptT ε (Program Operation Answer) α)
    (next : α → ExceptT ε (Program Operation Answer) β) (state visited : σ) :
    visited ∈ (routine >>= next).run.trail handler state ↔ visited ∈ routine.run.trail handler state ∨
      ∃ value reached, execute handler routine state = (.ok value, reached) ∧
        visited ∈ (next value).run.trail handler reached := by
  show visited ∈ (routine.run >>= ExceptT.bindCont next).trail handler state ↔ _
  rw [mem_trail_bind, execute]
  cases outcome : routine.run.run handler state with
  | mk result reached =>
    cases result with
    | ok value =>
      have same : (∃ final last, ((Except.ok value : Except ε α), reached) = (.ok final, last) ∧
          visited ∈ (next final).run.trail handler last) ↔
          visited ∈ (next value).run.trail handler reached := by
        constructor
        · rintro ⟨_, _, ⟨⟩, passed⟩
          exact passed
        · exact fun passed => ⟨value, reached, rfl, passed⟩
      rw [same]
      rfl
    | error error =>
      have final : reached ∈ routine.run.trail handler state := by
        simpa [outcome] using final_mem_trail handler routine.run state
      simp only [Prod.mk.injEq, reduceCtorEq, false_and, exists_false, or_false]
      constructor
      · rintro (passed | passed)
        · exact passed
        · rwa [List.mem_singleton.mp passed]
      · exact .inl

/-- An infallible part of a fallible routine. -/
@[simp] theorem execute_lift (program : Program Operation Answer α) (state : σ) :
    execute handler (liftM program : ExceptT ε (Program Operation Answer) α) state =
      (.ok (program.run handler state).1, (program.run handler state).2) := by
  let finish : α → Program Operation Answer (Except ε α) := fun value => done (Except.ok value)
  show (program >>= finish).run handler state = _
  rw [run_bind]
  rfl

/-- A demanded program fails with the translated error. -/
theorem execute_demand {δ : Type u} (report : ε → δ) (program : Program Operation Answer (Except ε α))
    (state : σ) :
    execute handler (demand report program) state =
      ((program.run handler state).1.mapError report, (program.run handler state).2) := by
  let finish : Except ε α → Program Operation Answer (Except δ α) := fun value => done (value.mapError report)
  show (program >>= finish).run handler state = _
  rw [run_bind]
  rfl

end Program

end Keyvisor.Foundation
