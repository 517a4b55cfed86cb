import Keyvisor.Foundation.Crash
import Keyvisor.Foundation.Transition

/-!
# Sessions of stoppable commands

A command is a program that comes to its end with an outcome or is stopped between two of
its questions. What it is for is stated over what the states stand for: the effect of a
success, what a success may answer, and whether a failure is excused for having had the
effect. A program that serves its purpose from every state can be run any number of times,
by any number of processes one after the other: what the states stand for changes in a
chain of acts, each of which has the command's whole effect or none.
-/

namespace Keyvisor.Foundation.Session

open Program Transition

variable {Operation : Type} {Answer : Operation → Type} {σ τ ε α Command : Type}

/-- The process of a command comes to its end with an outcome, or is stopped before it. -/
inductive Ending (ε α : Type) where
  | completed (outcome : Except ε α)
  | stopped (point : Nat)

/-- The state after a program, if the program ends so. -/
def settle [DecidableEq (Except ε α)] (handler : (operation : Operation) → σ → Answer operation × σ)
    (program : Program Operation Answer (Except ε α)) (state : σ) : Ending ε α → Option σ
  | .completed outcome =>
    if (program.run handler state).1 = outcome then some (program.run handler state).2 else none
  | .stopped point => (program.trail handler state)[point]?

/-- What a command is for. -/
structure Purpose (τ α : Type) where
  effect : τ → τ
  answers : τ → α → Prop
  excused : Prop

/-- The states at which a command can be stopped. -/
def Purpose.Between (purpose : Purpose τ α) (shows : σ → τ → Prop) (value : τ) (state : σ) : Prop :=
  shows state value ∨ shows state (purpose.effect value)

/-- How a command ends. -/
def Purpose.Ended (purpose : Purpose τ α) (shows : σ → τ → Prop) (value : τ) : Except ε α → σ → Prop
  | .ok answer, state => shows state (purpose.effect value) ∧ purpose.answers value answer
  | .error _, state => shows state value ∨ (purpose.excused ∧ shows state (purpose.effect value))

/-- A program is for its purpose, wherever it starts. -/
def Purpose.Serves (purpose : Purpose τ α) (shows : σ → τ → Prop)
    (handler : (operation : Operation) → σ → Answer operation × σ) (program : Program Operation Answer (Except ε α)) :
    Prop :=
  ∀ start value, shows start value →
    Meets handler (fun state => state = start) program (purpose.Between shows value) (purpose.Ended shows value)

/-- A command that is refused before it has asked for anything leaves everything as it is. -/
theorem Purpose.meets_refused (purpose : Purpose τ α) {shows : σ → τ → Prop}
    {handler : (operation : Operation) → σ → Answer operation × σ} {program : Program Operation Answer (Except ε α)}
    {start : σ} {value : τ} (shown : shows start value) {error : ε} (refused : program = .done (.error error)) :
    Meets handler (fun state => state = start) program (purpose.Between shows value) (purpose.Ended shows value) := by
  rw [refused]
  apply meets_done
  rintro _ rfl
  exact ⟨.inl shown, .inl shown⟩

/-- What a command that ends so makes of what the state stands for. -/
inductive Acts (purpose : Purpose τ α) (ending : Ending ε α) (value : τ) : τ → Prop where
  | succeeded (answer : α) (ended : ending = .completed (.ok answer)) (answered : purpose.answers value answer) :
      Acts purpose ending value (purpose.effect value)
  | failed (error : ε) (ended : ending = .completed (.error error)) : Acts purpose ending value value
  | excused (error : ε) (ended : ending = .completed (.error error)) (excuse : purpose.excused) :
      Acts purpose ending value (purpose.effect value)
  | before (point : Nat) (ended : ending = .stopped point) : Acts purpose ending value value
  | after (point : Nat) (ended : ending = .stopped point) : Acts purpose ending value (purpose.effect value)

/-- Whichever way a command ends, it acts on what the state stands for. -/
theorem Purpose.Serves.acts [DecidableEq (Except ε α)] {purpose : Purpose τ α} {shows : σ → τ → Prop}
    {handler : (operation : Operation) → σ → Answer operation × σ} {program : Program Operation Answer (Except ε α)}
    (serves : purpose.Serves shows handler program) {start final : σ} {value : τ} {ending : Ending ε α}
    (shown : shows start value) (settled : settle handler program start ending = some final) :
    ∃ later, shows final later ∧ Acts purpose ending value later := by
  obtain ⟨passes, ends⟩ := serves start value shown start rfl
  cases ending with
  | completed outcome =>
    simp only [settle, Option.ite_none_right_eq_some] at settled
    obtain ⟨same, ⟨⟩⟩ := settled
    rw [same] at ends
    cases outcome with
    | ok answer => exact ⟨_, ends.1, .succeeded answer rfl ends.2⟩
    | error error =>
      rcases ends with kept | ⟨excuse, changed⟩
      · exact ⟨value, kept, .failed error rfl⟩
      · exact ⟨_, changed, .excused error rfl excuse⟩
  | stopped point =>
    rcases passes final (List.mem_of_getElem? settled) with kept | changed
    · exact ⟨value, kept, .before point rfl⟩
    · exact ⟨_, changed, .after point rfl⟩

/-! ## Any number of commands -/

variable (purpose : Command → Purpose τ α) (ending : Command → Ending ε α)

/-- Commands act one after the other. -/
inductive Chain : τ → List Command → τ → Prop where
  | nil (value : τ) : Chain value [] value
  | cons {value middle last : τ} {command : Command} {rest : List Command}
      (first : Acts (purpose command) (ending command) value middle) (later : Chain middle rest last) :
      Chain value (command :: rest) last

/-- The effect of a command that reports what it did. -/
def reported (value : τ) (command : Command) : τ :=
  match ending command with
  | .completed (.ok _) => (purpose command).effect value
  | _ => value

/-- The command came to its end and no failure of it is excused. -/
def Sure (command : Command) : Prop :=
  (∃ outcome, ending command = .completed outcome) ∧ ¬ (purpose command).excused

variable {purpose} {ending}

/-- Where each step of a run acts as its command is meant to, the run is a chain of acts. -/
theorem chain_of_run {step : σ → Command → Option σ} {shows : σ → τ → Prop}
    (acts : ∀ start command final value, shows start value → step start command = some final →
      ∃ later, shows final later ∧ Acts (purpose command) (ending command) value later)
    {start final : σ} {value : τ} {commands : List Command} (shown : shows start value)
    (reached : run step start commands = some final) :
    ∃ last, shows final last ∧ Chain purpose ending value commands last := by
  induction commands generalizing start value with
  | nil =>
    cases reached
    exact ⟨value, shown, .nil value⟩
  | cons command rest inductionHypothesis =>
    obtain ⟨middle, taken, remaining⟩ := run_cons.mp reached
    obtain ⟨later, shows, acted⟩ := acts start command middle value shown taken
    obtain ⟨last, ends, chain⟩ := inductionHypothesis shows remaining
    exact ⟨last, ends, .cons acted chain⟩

/-- A chain of sure commands has the effects that were reported. -/
theorem Chain.reported_of_sure {value last : τ} {commands : List Command}
    (chain : Chain purpose ending value commands last)
    (sure : ∀ command ∈ commands, Sure purpose ending command) :
    last = commands.foldl (reported purpose ending) value := by
  induction chain with
  | nil => rfl
  | @cons value middle last command rest first later inductionHypothesis =>
    obtain ⟨⟨outcome, completed⟩, unexcused⟩ := sure command List.mem_cons_self
    have settled : middle = reported purpose ending value command := by
      cases first with
      | succeeded answer ended _ => rw [reported, ended]
      | failed error ended => rw [reported, ended]
      | excused error ended excuse => exact absurd excuse unexcused
      | before point ended =>
        rw [completed] at ended
        cases ended
      | after point ended =>
        rw [completed] at ended
        cases ended
    rw [List.foldl_cons, ← settled]
    exact inductionHypothesis fun other member => sure other (List.mem_cons_of_mem _ member)

/-- What no effect changes is kept by every chain. -/
theorem Chain.kept {value last : τ} {commands : List Command} {Part : Type} (part : τ → Part)
    (chain : Chain purpose ending value commands last)
    (kept : ∀ command ∈ commands, ∀ value, part ((purpose command).effect value) = part value) :
    part last = part value := by
  induction chain with
  | nil => rfl
  | @cons value middle last command rest first later inductionHypothesis =>
    rw [inductionHypothesis fun other member => kept other (List.mem_cons_of_mem _ member)]
    cases first with
    | succeeded | excused | after => exact kept command List.mem_cons_self value
    | failed | before => rfl

end Keyvisor.Foundation.Session
