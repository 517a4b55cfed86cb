import Keyvisor.PinExchange

/-!
# Calls that a look at the table missed

A call of `request_pin` enters the table once and leaves it for good, whether it
removes its entry itself or a command takes it. A look at the table therefore
divides the calls for the rest of the run: those that had entered it before and are
not shown have left it, so whatever is shown later entered it afterwards.
-/

namespace Keyvisor.Freshness

open Foundation Foundation.Text Control PinExchange

/-- The call has entered the table, now or earlier. -/
def Enrolled (state : State) (call : Nat) : Prop :=
  ∃ found, state.calls[call]? = some found ∧ found.stage ≠ .numbered

/-- The call has entered the table and left it. -/
def Departed (state : State) (call : Nat) : Prop :=
  (∃ taker, Took state taker call) ∨
    ∃ found, state.calls[call]? = some found ∧ found.stage ≠ .numbered ∧ found.stage.registered = false

/-- Every call that had entered the table when it was seen has left it by now. -/
def Past (seen now : State) : Prop := ∀ call, Enrolled seen call → Departed now call

/-- A call that has entered the table does not enter it again. -/
def Ages (old new : Stage) : Prop :=
  old ≠ .numbered → new ≠ .numbered ∧ (old.registered = false → new.registered = false)

/-- Every stage ages into itself. -/
theorem ages_rfl (stage : Stage) : Ages stage stage := fun begun => ⟨begun, id⟩

section

variable {process : UInt32} {state next seen : State} {action : Action}

/-- A step that changes one call only. -/
theorem ages_set {index : Nat} {old new : Call} (found : state.calls[index]? = some old)
    (ages : Ages old.stage new.stage) {other : Nat} {call : Call} (present : state.calls[other]? = some call) :
    ∃ after, (state.calls.set index new)[other]? = some after ∧ Ages call.stage after.stage := by
  rw [getElem?_set_found found]
  by_cases here : index = other
  · subst here
    rw [found] at present
    cases present
    exact ⟨new, if_pos rfl, ages⟩
  · exact ⟨call, (if_neg here).trans present, ages_rfl _⟩

/-- What a step does to the stage of any call. -/
theorem ages_step (taken : step process state action = some next) {other : Nat} {call : Call}
    (present : state.calls[other]? = some call) :
    ∃ after, next.calls[other]? = some after ∧ Ages call.stage after.stage := by
  cases moves_of_step process taken with
  | number keyName => exact ⟨call, getElem?_before present _, ages_rfl _⟩
  | insert found => exact ages_set found (fun begun => absurd rfl begun) present
  | received found | empty found | disconnected found | waits found | expires found | repeats found
  | cancels found | remove found | finish found =>
    exact ages_set found (by simp [Ages, Stage.registered]) present
  | @send index target id pin sent found aimed =>
    have same : Ages sent.stage ({ sent with queue := [pin] } : Call).stage := ages_rfl _
    exact ages_set aimed same present
  | command | take | miss | refuse => exact ⟨call, present, ages_rfl _⟩

/-- A command that took an entry has taken it for good. -/
theorem took_step (taken : step process state action = some next) {taker call : Nat}
    (took : Took state taker call) : Took next taker call := by
  have kept {index : Nat} {old : Taker} (found : state.takers[index]? = some old) (new : Taker)
      (same : old.grant.took = some call → new.grant.took = some call) :
      Took (state.setTaker index new) taker call := by
    rw [took_setTaker found]
    by_cases here : index = taker
    · subst here
      exact (if_pos rfl).mpr (same ((took_of_found found call).mp took))
    · exact (if_neg here).mpr took
  cases moves_of_step process taken with
  | command id pin =>
    obtain ⟨command, found, grant⟩ := took
    exact ⟨command, getElem?_before found _, grant⟩
  | take found | miss found => exact kept found _ fun impossible => by cases impossible
  | send found | refuse found => exact kept found _ id
  | _ => exact took

/-- An enrolled call stays enrolled. -/
theorem Enrolled.step {call : Nat} (enrolled : Enrolled state call)
    (taken : step process state action = some next) : Enrolled next call := by
  obtain ⟨found, present, begun⟩ := enrolled
  obtain ⟨after, still, ages⟩ := ages_step taken present
  exact ⟨after, still, (ages begun).1⟩

/-- A departed call stays departed. -/
theorem Departed.step {call : Nat} (departed : Departed state call)
    (taken : step process state action = some next) : Departed next call := by
  rcases departed with ⟨taker, took⟩ | ⟨found, present, begun, gone⟩
  · exact .inl ⟨taker, took_step taken took⟩
  · obtain ⟨after, still, ages⟩ := ages_step taken present
    exact .inr ⟨after, still, (ages begun).1, (ages begun).2 gone⟩

/-- What is past stays past. -/
theorem Past.step (past : Past seen state) (taken : PinExchange.step process state action = some next) :
    Past seen next := fun call enrolled => (past call enrolled).step taken

/-- An empty table has been left by every call that entered it. -/
theorem past_of_empty (sound : Sound process state) (empty : shown state.table = []) : Past state state := by
  rintro call ⟨found, present, begun⟩
  by_cases registered : found.stage.registered
  · rcases sound.kept call found present registered with listed | taken
    · have member := AList.mem_lookup_iff.mp listed
      rw [List.map_eq_nil_iff.mp empty] at member
      exact absurd member List.not_mem_nil
    · exact .inl taken
  · exact .inr ⟨found, present, begun, Bool.eq_false_iff.mpr registered⟩

/-- The call behind an entry has not left the table. -/
theorem not_departed_of_listed (sound : Sound process state) {id : RequestId} {entry : PendingAuthorization}
    (listed : state.table.lookup id = some entry) : ¬ Departed state entry.sender := by
  obtain ⟨call, present, _, _, registered, untaken⟩ := sound.listed id entry listed
  rintro (⟨taker, took⟩ | ⟨found, again, _, gone⟩)
  · exact untaken taker took
  · rw [present] at again
    cases again
    rw [registered] at gone
    cases gone

/-- What the only request of a look at the table says of its call. -/
theorem call_of_shown (sound : Sound process state) {id : RequestId} {keyName : String}
    (only : shown state.table = [(id, keyName)]) :
    ∃ call, id = number process call ∧ Enrolled state call ∧ ¬ Departed state call := by
  obtain ⟨⟨key, entry⟩, single, same⟩ := List.map_eq_singleton_iff.mp only
  cases same
  have listed : state.table.lookup key = some entry :=
    AList.mem_lookup_iff.mpr (single ▸ List.mem_singleton_self _)
  obtain ⟨call, present, named, _, registered, _⟩ := sound.listed key entry listed
  refine ⟨entry.sender, named, ⟨call, present, ?_⟩, not_departed_of_listed sound listed⟩
  intro unregistered
  rw [unregistered] at registered
  cases registered

end

end Keyvisor.Freshness
