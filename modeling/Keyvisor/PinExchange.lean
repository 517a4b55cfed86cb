import Keyvisor.Control
import Keyvisor.Foundation.Ownership
import Keyvisor.Foundation.Transition

/-!
# The exchange of PINs

Executable translation of what `request_pin` and the authorization command of
`serve_control_connection` in `keyvisor-agent/src/main.rs` do to each other: the
atomic request counter, the table of pending authorizations and one channel of
capacity one for each call. Every access to something shared is a step of its own,
so a run is any interleaving of any number of calls and commands.

Calls are numbered by the counter, which starts at one, and are listed in that
order. A call's channel has its receiver until the call returns. Its sender moves
from the table to the command that removes the entry; the command keeps it until
the value is sent, and what it does with it afterwards cannot be observed.

The graphical prompt that a call may start is another control client and has no
step here.
-/

namespace Keyvisor.PinExchange

open Foundation Foundation.Text Control

/-- Where a call of `request_pin` stands: after taking its number; at the three
checks of its loop; after the loop with a result; after its final removal; and
after it has returned, when its receiver is gone. -/
inductive Stage where
  | numbered
  | polling
  | checking
  | observing
  | leaving (result : Except String Bytes)
  | removed (result : Except String Bytes)
  | returned (result : Except String Bytes)
  deriving DecidableEq

namespace Stage

/-- The call has inserted its entry and has not yet removed it. -/
def registered : Stage → Bool
  | polling => true
  | checking => true
  | observing => true
  | leaving _ => true
  | _ => false

/-- What the call returns, once that is decided. -/
def result : Stage → Option (Except String Bytes)
  | leaving result => some result
  | removed result => some result
  | returned result => some result
  | _ => none

/-- The receiver exists. -/
def listening : Stage → Bool
  | returned _ => false
  | _ => true

end Stage

/-- A call of `request_pin` with the messages in its channel. -/
structure Call where
  keyName : String
  stage : Stage
  queue : List Pin
  deriving DecidableEq

/-- What became of an authorization command: it has not looked yet, found nothing,
holds the sender of a call, has sent its value or was refused. -/
inductive Grant where
  | seeking
  | missing
  | holding (call : Nat)
  | delivered (call : Nat)
  | refused (call : Nat)
  deriving DecidableEq, Repr

/-- The call whose entry the command removed. -/
def Grant.took : Grant → Option Nat
  | holding call => some call
  | delivered call => some call
  | refused call => some call
  | _ => none

/-- An authorization command. -/
structure Taker where
  id : RequestId
  pin : Pin
  grant : Grant
  deriving DecidableEq

/-- The table, the calls of `request_pin`, and the authorization commands. -/
structure State where
  table : Table
  calls : List Call
  takers : List Taker

/-- No call and no command. -/
def initial : State := ⟨∅, [], []⟩

/-- A step of a call or of a command. -/
inductive Action where
  | number (keyName : String)
  | insert (call : Nat)
  | poll (call : Nat)
  | deadline (call : Nat) (passed : Bool)
  | observe (call : Nat) (cancelled : Bool)
  | remove (call : Nat)
  | finish (call : Nat)
  | command (id : RequestId) (pin : Pin)
  | take (taker : Nat)
  | send (taker : Nat)
  deriving DecidableEq

namespace State

/-- One call changes. -/
def setCall (state : State) (index : Nat) (call : Call) : State :=
  { state with calls := state.calls.set index call }

/-- One command changes. -/
def setTaker (state : State) (index : Nat) (taker : Taker) : State :=
  { state with takers := state.takers.set index taker }

/-- Somebody could still send to the call: the table or a command has its sender. -/
def sendable (state : State) (call : Nat) : Bool :=
  state.table.entries.any (fun entry => entry.2.sender == call) ||
    state.takers.any (fun taker => taker.grant == .holding call)

end State

/-- The outcomes of `try_recv`. -/
inductive TryRecv where
  | received (pin : Pin) (rest : List Pin)
  | empty
  | disconnected
  deriving DecidableEq

/-- `try_recv`: the first value, or whether there may still be one. -/
def tryRecv (state : State) (index : Nat) (call : Call) : TryRecv :=
  match call.queue with
  | pin :: rest => .received pin rest
  | [] => if state.sendable index then .empty else .disconnected

section

variable (process : UInt32)

/-- The identifier of a call. The counter starts at one. -/
def number (index : Nat) : RequestId := requestId process (index + 1)

/-- One step of a call or of a command; a step that is not the next one of its
thread, and a send into a full channel, is not enabled. -/
def step (state : State) : Action → Option State
  | .number keyName => some { state with calls := state.calls ++ [⟨keyName, .numbered, []⟩] }
  | .insert index =>
    match state.calls[index]? with
    | some ⟨keyName, .numbered, queue⟩ =>
      some { state.setCall index ⟨keyName, .polling, queue⟩ with
        table := state.table.insert (number process index) ⟨keyName, index⟩ }
    | _ => none
  | .poll index =>
    match state.calls[index]? with
    | some ⟨keyName, .polling, queue⟩ =>
      match tryRecv state index ⟨keyName, .polling, queue⟩ with
      | .received pin rest => some (state.setCall index ⟨keyName, .leaving (.ok pin.bytes), rest⟩)
      | .empty => some (state.setCall index ⟨keyName, .checking, queue⟩)
      | .disconnected =>
        some (state.setCall index ⟨keyName, .leaving (.error "authorization request was cancelled"), queue⟩)
    | _ => none
  | .deadline index passed =>
    match state.calls[index]? with
    | some ⟨keyName, .checking, queue⟩ =>
      if passed then
        some (state.setCall index ⟨keyName, .leaving (.error "TPM PIN entry timed out"), queue⟩)
      else some (state.setCall index ⟨keyName, .observing, queue⟩)
    | _ => none
  | .observe index cancelled =>
    match state.calls[index]? with
    | some ⟨keyName, .observing, queue⟩ =>
      if cancelled then
        some (state.setCall index
          ⟨keyName, .leaving (.error "TPM PIN entry cancelled because the SSH client disconnected"), queue⟩)
      else some (state.setCall index ⟨keyName, .polling, queue⟩)
    | _ => none
  | .remove index =>
    match state.calls[index]? with
    | some ⟨keyName, .leaving result, queue⟩ =>
      some { state.setCall index ⟨keyName, .removed result, queue⟩ with
        table := state.table.erase (number process index) }
    | _ => none
  | .finish index =>
    match state.calls[index]? with
    | some ⟨keyName, .removed result, _⟩ => some (state.setCall index ⟨keyName, .returned result, []⟩)
    | _ => none
  | .command id pin => some { state with takers := state.takers ++ [⟨id, pin, .seeking⟩] }
  | .take index =>
    match state.takers[index]? with
    | some ⟨id, pin, .seeking⟩ =>
      match state.table.lookup id with
      | some entry =>
        some { state.setTaker index ⟨id, pin, .holding entry.sender⟩ with table := state.table.erase id }
      | none => some (state.setTaker index ⟨id, pin, .missing⟩)
    | _ => none
  | .send index =>
    match state.takers[index]? with
    | some ⟨id, pin, .holding target⟩ =>
      match state.calls[target]? with
      | some call =>
        if call.stage.listening then
          if call.queue = [] then
            some ((state.setCall target { call with queue := [pin] }).setTaker index ⟨id, pin, .delivered target⟩)
          else none
        else some (state.setTaker index ⟨id, pin, .refused target⟩)
      | none => none
    | _ => none

/-- What a step can do, one case for each branch of the source. -/
inductive Moves (state : State) : Action → State → Prop where
  | number (keyName : String) :
      Moves state (.number keyName) { state with calls := state.calls ++ [⟨keyName, .numbered, []⟩] }
  | insert {index : Nat} {keyName : String} {queue : List Pin}
      (found : state.calls[index]? = some ⟨keyName, .numbered, queue⟩) :
      Moves state (.insert index) { state.setCall index ⟨keyName, .polling, queue⟩ with
        table := state.table.insert (number process index) ⟨keyName, index⟩ }
  | received {index : Nat} {keyName : String} {pin : Pin} {rest : List Pin}
      (found : state.calls[index]? = some ⟨keyName, .polling, pin :: rest⟩) :
      Moves state (.poll index) (state.setCall index ⟨keyName, .leaving (.ok pin.bytes), rest⟩)
  | empty {index : Nat} {keyName : String} (found : state.calls[index]? = some ⟨keyName, .polling, []⟩)
      (sendable : state.sendable index) :
      Moves state (.poll index) (state.setCall index ⟨keyName, .checking, []⟩)
  | disconnected {index : Nat} {keyName : String} (found : state.calls[index]? = some ⟨keyName, .polling, []⟩)
      (cut : tryRecv state index ⟨keyName, .polling, []⟩ = .disconnected) :
      Moves state (.poll index)
        (state.setCall index ⟨keyName, .leaving (.error "authorization request was cancelled"), []⟩)
  | waits {index : Nat} {keyName : String} {queue : List Pin}
      (found : state.calls[index]? = some ⟨keyName, .checking, queue⟩) :
      Moves state (.deadline index false) (state.setCall index ⟨keyName, .observing, queue⟩)
  | expires {index : Nat} {keyName : String} {queue : List Pin}
      (found : state.calls[index]? = some ⟨keyName, .checking, queue⟩) :
      Moves state (.deadline index true)
        (state.setCall index ⟨keyName, .leaving (.error "TPM PIN entry timed out"), queue⟩)
  | repeats {index : Nat} {keyName : String} {queue : List Pin}
      (found : state.calls[index]? = some ⟨keyName, .observing, queue⟩) :
      Moves state (.observe index false) (state.setCall index ⟨keyName, .polling, queue⟩)
  | cancels {index : Nat} {keyName : String} {queue : List Pin}
      (found : state.calls[index]? = some ⟨keyName, .observing, queue⟩) :
      Moves state (.observe index true) (state.setCall index
        ⟨keyName, .leaving (.error "TPM PIN entry cancelled because the SSH client disconnected"), queue⟩)
  | remove {index : Nat} {keyName : String} {result : Except String Bytes} {queue : List Pin}
      (found : state.calls[index]? = some ⟨keyName, .leaving result, queue⟩) :
      Moves state (.remove index) { state.setCall index ⟨keyName, .removed result, queue⟩ with
        table := state.table.erase (number process index) }
  | finish {index : Nat} {keyName : String} {result : Except String Bytes} {queue : List Pin}
      (found : state.calls[index]? = some ⟨keyName, .removed result, queue⟩) :
      Moves state (.finish index) (state.setCall index ⟨keyName, .returned result, []⟩)
  | command (id : RequestId) (pin : Pin) :
      Moves state (.command id pin) { state with takers := state.takers ++ [⟨id, pin, .seeking⟩] }
  | take {index : Nat} {id : RequestId} {pin : Pin} {entry : PendingAuthorization}
      (found : state.takers[index]? = some ⟨id, pin, .seeking⟩) (present : state.table.lookup id = some entry) :
      Moves state (.take index)
        { state.setTaker index ⟨id, pin, .holding entry.sender⟩ with table := state.table.erase id }
  | miss {index : Nat} {id : RequestId} {pin : Pin} (found : state.takers[index]? = some ⟨id, pin, .seeking⟩)
      (absent : state.table.lookup id = none) :
      Moves state (.take index) (state.setTaker index ⟨id, pin, .missing⟩)
  | send {index target : Nat} {id : RequestId} {pin : Pin} {call : Call}
      (found : state.takers[index]? = some ⟨id, pin, .holding target⟩)
      (aimed : state.calls[target]? = some call) (listening : call.stage.listening) (room : call.queue = []) :
      Moves state (.send index)
        ((state.setCall target { call with queue := [pin] }).setTaker index ⟨id, pin, .delivered target⟩)
  | refuse {index target : Nat} {id : RequestId} {pin : Pin} {call : Call}
      (found : state.takers[index]? = some ⟨id, pin, .holding target⟩)
      (aimed : state.calls[target]? = some call) (deaf : ¬ call.stage.listening) :
      Moves state (.send index) (state.setTaker index ⟨id, pin, .refused target⟩)

section

variable {state next : State} {index : Nat}

/-- An enabled poll takes a waiting value, finds the channel empty or finds it cut. -/
theorem moves_of_poll (taken : step process state (.poll index) = some next) :
    Moves process state (.poll index) next := by
  simp only [step] at taken
  split at taken
  · rename_i keyName queue found
    cases queue with
    | cons pin rest =>
      cases taken
      exact .received found
    | nil =>
      by_cases sendable : state.sendable index
      · simp only [tryRecv, sendable, ↓reduceIte] at taken
        cases taken
        exact .empty found sendable
      · simp only [tryRecv, sendable] at taken
        cases taken
        exact .disconnected found (by simp [tryRecv, sendable])
  · cases taken

/-- An enabled look at the deadline ends the wait or lets it go on. -/
theorem moves_of_deadline {passed : Bool} (taken : step process state (.deadline index passed) = some next) :
    Moves process state (.deadline index passed) next := by
  simp only [step] at taken
  split at taken
  · rename_i found
    cases passed with
    | true =>
      cases taken
      exact .expires found
    | false =>
      cases taken
      exact .waits found
  · cases taken

/-- An enabled look at the cancellation ends the wait or starts the next round. -/
theorem moves_of_observe {cancelled : Bool} (taken : step process state (.observe index cancelled) = some next) :
    Moves process state (.observe index cancelled) next := by
  simp only [step] at taken
  split at taken
  · rename_i found
    cases cancelled with
    | true =>
      cases taken
      exact .cancels found
    | false =>
      cases taken
      exact .repeats found
  · cases taken

/-- An enabled removal of a command finds its identifier in the table or misses it. -/
theorem moves_of_take (taken : step process state (.take index) = some next) :
    Moves process state (.take index) next := by
  simp only [step] at taken
  split at taken
  · rename_i found
    split at taken
    · rename_i present
      cases taken
      exact .take found present
    · rename_i absent
      cases taken
      exact .miss found absent
  · cases taken

/-- An enabled send of a command has room in the channel, or nobody listens any more. -/
theorem moves_of_send (taken : step process state (.send index) = some next) :
    Moves process state (.send index) next := by
  simp only [step] at taken
  split at taken
  · rename_i found
    split at taken
    · rename_i aimed
      split at taken
      · rename_i listening
        split at taken
        · rename_i room
          cases taken
          exact .send found aimed listening room
        · cases taken
      · rename_i deaf
        cases taken
        exact .refuse found aimed deaf
    · cases taken
  · cases taken

/-- Every enabled step is one of the branches of the source. -/
theorem moves_of_step {action : Action} (taken : step process state action = some next) :
    Moves process state action next := by
  cases action with
  | number keyName =>
    cases taken
    exact .number keyName
  | insert index =>
    simp only [step] at taken
    split at taken
    · rename_i found
      cases taken
      exact .insert found
    · cases taken
  | poll index => exact moves_of_poll process taken
  | deadline index passed => exact moves_of_deadline process taken
  | observe index cancelled => exact moves_of_observe process taken
  | remove index =>
    simp only [step] at taken
    split at taken
    · rename_i found
      cases taken
      exact .remove found
    · cases taken
  | finish index =>
    simp only [step] at taken
    split at taken
    · rename_i found
      cases taken
      exact .finish found
    · cases taken
  | command id pin =>
    cases taken
    exact .command id pin
  | take index => exact moves_of_take process taken
  | send index => exact moves_of_send process taken

end

/-- Calls are listed for good. -/
theorem calls_grow {state next : State} {action : Action} (taken : step process state action = some next) :
    state.calls.length ≤ next.calls.length := by
  cases moves_of_step process taken <;> simp [State.setCall, State.setTaker]

/-! ## The invariant -/

/-- How a command that removed the entry of a call stands to that call. -/
def Settled (call : Call) (taker : Taker) : Prop :=
  match taker.grant with
  | .holding _ => call.queue = [] ∧ ∀ bytes, call.stage.result ≠ some (.ok bytes)
  | .delivered _ =>
    (call.queue = [taker.pin] ∧ call.stage.listening ∧ ∀ bytes, call.stage.result ≠ some (.ok bytes)) ∨
    (call.queue = [] ∧ call.stage.result = some (.ok taker.pin.bytes)) ∨
    (call.queue = [] ∧ ∃ message, call.stage = .returned (.error message))
  | .refused _ => call.queue = [] ∧ ∃ message, call.stage = .returned (.error message)
  | _ => True

/-- The command removed the entry of the call. -/
def Took (state : State) (taker call : Nat) : Prop :=
  ∃ command, state.takers[taker]? = some command ∧ command.grant.took = some call

/-- The table holds exactly the registered calls whose entry no command has taken;
an entry is taken by one command, for its own identifier; and nothing is in a
channel or received from one unless a command sent it. -/
structure Sound (state : State) : Prop where
  listed : ∀ (id : RequestId) (entry : PendingAuthorization), state.table.lookup id = some entry →
    ∃ call, state.calls[entry.sender]? = some call ∧ id = number process entry.sender ∧
      entry.keyName = call.keyName ∧ call.stage.registered ∧ ∀ taker, ¬ Took state taker entry.sender
  kept : ∀ (index : Nat) (call : Call), state.calls[index]? = some call → call.stage.registered →
    state.table.lookup (number process index) = some ⟨call.keyName, index⟩ ∨ ∃ taker, Took state taker index
  owned : ∀ (index : Nat) (taker : Taker) (target : Nat), state.takers[index]? = some taker →
    taker.grant.took = some target → ∃ call, state.calls[target]? = some call ∧
      taker.id = number process target ∧ call.stage ≠ .numbered ∧ Settled call taker
  once : ∀ first second target : Nat, Took state first target → Took state second target → first = second
  sent : ∀ (index : Nat) (call : Call), state.calls[index]? = some call →
    (call.queue ≠ [] ∨ ∃ bytes, call.stage.result = some (.ok bytes)) →
    ∃ (holder : Nat) (taker : Taker), state.takers[holder]? = some taker ∧ taker.grant = .delivered index

/-- Before any call the exchange is sound. -/
theorem sound_initial : Sound process initial := by
  constructor <;> simp [initial, Took]

/-- Identifiers are not reused while the counter does not wrap. -/
theorem number_injective {first second : Nat} (firstFits : first + 1 < 2 ^ 64) (secondFits : second + 1 < 2 ^ 64)
    (same : number process first = number process second) : first = second := by
  have suffixes : paddedHex 8 (first + 1) = paddedHex 8 (second + 1) := by
    have joined := List.append_cancel_left same
    exact (List.cons.inj joined).2
  have numbers := paddedHex_injective 8 _ _ (by simpa using firstFits) (by simpa using secondFits) suffixes
  omega

end

section

variable {process : UInt32} {state : State}

/-- A call that is found has a number below the count. -/
theorem index_lt {index : Nat} {call : Call} (found : state.calls[index]? = some call) :
    index < state.calls.length := (List.getElem?_eq_some_iff.mp found).1

/-- A step of one call, which may change the call and the table at the call's own
identifier. The call and its entry must still fit together, and everything else
is as it was. -/
theorem Sound.change (sound : Sound process state) (few : state.calls.length < 2 ^ 64) {index : Nat}
    {old new : Call} (table : Table) (found : state.calls[index]? = some old)
    (frame : ∀ id, id ≠ number process index → table.lookup id = state.table.lookup id)
    (listed : ∀ entry, table.lookup (number process index) = some entry →
      entry = ⟨new.keyName, index⟩ ∧ new.stage.registered ∧ ∀ taker, ¬ Took state taker index)
    (kept : new.stage.registered →
      table.lookup (number process index) = some ⟨new.keyName, index⟩ ∨ ∃ taker, Took state taker index)
    (settled : ∀ taker : Taker, taker.grant.took = some index → old.stage ≠ .numbered → Settled old taker →
      new.stage ≠ .numbered ∧ Settled new taker)
    (sent : (new.queue ≠ [] ∨ ∃ bytes, new.stage.result = some (.ok bytes)) →
      old.queue ≠ [] ∨ ∃ bytes, old.stage.result = some (.ok bytes)) :
    Sound process { state.setCall index new with table := table } := by
  have calls (other : Nat) : (state.calls.set index new)[other]? =
      if index = other then some new else state.calls[other]? := getElem?_set_found found new other
  have fits := index_lt found
  constructor
  · intro id entry present
    by_cases own : id = number process index
    · subst own
      obtain ⟨rfl, stage, untaken⟩ := listed entry present
      exact ⟨new, by simp [State.setCall, calls], rfl, rfl, stage, untaken⟩
    · obtain ⟨call, at_sender, formed, same, stage, untaken⟩ :=
        sound.listed id entry ((frame id own).symm.trans present)
      have elsewhere : index ≠ entry.sender := fun here => own (here ▸ formed)
      exact ⟨call, by simp [State.setCall, calls, elsewhere, at_sender], formed, same, stage, untaken⟩
  · intro other call at_other stage
    simp only [State.setCall, calls] at at_other
    split at at_other
    · rename_i here
      subst here
      cases at_other
      exact kept stage
    · rename_i elsewhere
      have other_fits := index_lt at_other
      have different : number process other ≠ number process index := fun same =>
        elsewhere (number_injective process (by omega) (by omega) same).symm
      exact (sound.kept other call at_other stage).imp (frame _ different).trans id
  · intro holder taker target at_holder took
    obtain ⟨call, at_target, formed, stage, holds⟩ := sound.owned holder taker target at_holder took
    by_cases here : index = target
    · subst here
      rw [found] at at_target
      cases at_target
      obtain ⟨begun, still⟩ := settled taker took stage holds
      exact ⟨new, by simp [State.setCall, calls], formed, begun, still⟩
    · exact ⟨call, by simp [State.setCall, calls, here, at_target], formed, stage, holds⟩
  · exact sound.once
  · intro other call at_other something
    simp only [State.setCall, calls] at at_other
    split at at_other
    · rename_i here
      subst here
      cases at_other
      exact sound.sent index old found (sent something)
    · exact sound.sent other call at_other something

/-- The entry under a call's identifier is its own. -/
theorem Sound.own_entry (sound : Sound process state) (few : state.calls.length < 2 ^ 64) {index : Nat}
    {call : Call} (found : state.calls[index]? = some call) {entry : PendingAuthorization}
    (present : state.table.lookup (number process index) = some entry) :
    entry = ⟨call.keyName, index⟩ ∧ call.stage.registered ∧ ∀ taker, ¬ Took state taker index := by
  obtain ⟨other, at_sender, formed, same, stage, untaken⟩ := sound.listed _ entry present
  have fits := index_lt found
  have sender_fits := index_lt at_sender
  obtain rfl : index = entry.sender := number_injective process (by omega) (by omega) formed
  rw [found] at at_sender
  cases at_sender
  refine ⟨?_, stage, untaken⟩
  cases entry
  cases same
  rfl

/-- A step of one call that leaves the table alone. -/
theorem Sound.setCall (sound : Sound process state) (few : state.calls.length < 2 ^ 64) {index : Nat}
    {old new : Call} (found : state.calls[index]? = some old) (name : new.keyName = old.keyName)
    (registered : new.stage.registered = old.stage.registered) (begun : new.stage ≠ .numbered)
    (settled : ∀ taker : Taker, taker.grant.took = some index → Settled old taker → Settled new taker)
    (sent : (new.queue ≠ [] ∨ ∃ bytes, new.stage.result = some (.ok bytes)) →
      old.queue ≠ [] ∨ ∃ bytes, old.stage.result = some (.ok bytes)) :
    Sound process (state.setCall index new) := by
  refine sound.change few state.table found (fun _ _ => rfl) ?_ ?_ ?_ sent
  · intro entry present
    rw [name, registered]
    exact sound.own_entry few found present
  · rw [name, registered]
    exact sound.kept index old found
  · exact fun taker took _ holds => ⟨begun, settled taker took holds⟩

/-- A new call keeps the exchange sound. -/
theorem Sound.number (sound : Sound process state) (keyName : String) :
    Sound process { state with calls := state.calls ++ [⟨keyName, .numbered, []⟩] } := by
  constructor
  · intro id entry present
    obtain ⟨call, found, rest⟩ := sound.listed id entry present
    exact ⟨call, getElem?_before found _, rest⟩
  · intro index call found stage
    rcases getElem?_concat found with old | ⟨_, rfl⟩
    · exact sound.kept index call old stage
    · cases stage
  · intro index taker target at_index took
    obtain ⟨call, found, rest⟩ := sound.owned index taker target at_index took
    exact ⟨call, getElem?_before found _, rest⟩
  · exact sound.once
  · intro index call found something
    rcases getElem?_concat found with old | ⟨_, rfl⟩
    · exact sound.sent index call old something
    · rcases something with message | ⟨_, impossible⟩
      · exact absurd rfl message
      · cases impossible

/-- Nothing is known of a call that has not inserted its entry. -/
theorem Sound.numbered (sound : Sound process state) {index : Nat} {call : Call}
    (found : state.calls[index]? = some call) (stage : call.stage = .numbered) (taker : Nat) :
    ¬ Took state taker index := by
  rintro ⟨command, at_taker, took⟩
  obtain ⟨other, found_other, _, begun, _⟩ := sound.owned taker command index at_taker took
  rw [found] at found_other
  cases found_other
  exact begun stage

/-- A registration keeps the exchange sound while the counter has not wrapped. -/
theorem Sound.insert (sound : Sound process state) (few : state.calls.length < 2 ^ 64) {index : Nat}
    {keyName : String} {queue : List Pin} (found : state.calls[index]? = some ⟨keyName, .numbered, queue⟩) :
    Sound process { state.setCall index ⟨keyName, .polling, queue⟩ with
      table := state.table.insert (PinExchange.number process index) ⟨keyName, index⟩ } := by
  refine sound.change few _ found (fun id different => AList.lookup_insert_ne different) ?_ ?_ ?_ ?_
  · intro entry present
    rw [AList.lookup_insert] at present
    cases present
    exact ⟨rfl, rfl, sound.numbered found rfl⟩
  · exact fun _ => .inl (AList.lookup_insert _)
  · exact fun _ _ begun _ => absurd rfl begun
  · refine Or.imp_right ?_
    rintro ⟨bytes, impossible⟩
    cases impossible

/-- A removal keeps the exchange sound while the counter has not wrapped. -/
theorem Sound.remove (sound : Sound process state) (few : state.calls.length < 2 ^ 64) {index : Nat}
    {keyName : String} {result : Except String Bytes} {queue : List Pin}
    (found : state.calls[index]? = some ⟨keyName, .leaving result, queue⟩) :
    Sound process { state.setCall index ⟨keyName, .removed result, queue⟩ with
      table := state.table.erase (PinExchange.number process index) } := by
  refine sound.change few _ found (fun id different => AList.lookup_erase_ne different) ?_ ?_ ?_ ?_
  · intro entry present
    rw [AList.lookup_erase] at present
    cases present
  · nofun
  · intro taker _ _ holds
    refine ⟨nofun, ?_⟩
    cases grant : taker.grant <;> simp_all [Settled, Stage.result, Stage.listening]
  · exact id

/-- What a step of one command means for who took which entry. -/
theorem took_setTaker {index : Nat} {old : Taker} (found : state.takers[index]? = some old) (new : Taker)
    (taker call : Nat) : Took (state.setTaker index new) taker call ↔
      if index = taker then new.grant.took = some call else Took state taker call := by
  have takers : (state.takers.set index new)[taker]? = if index = taker then some new else state.takers[taker]? :=
    getElem?_set_found found new taker
  simp only [Took, State.setTaker, takers]
  split
  · simp
  · rfl

/-- A command took the call that its grant says. -/
theorem took_of_found {index : Nat} {taker : Taker} (found : state.takers[index]? = some taker) (call : Nat) :
    Took state index call ↔ taker.grant.took = some call := by
  simp [Took, found]

/-- A new command keeps the exchange sound. -/
theorem Sound.command (sound : Sound process state) (id : RequestId) (pin : Pin) :
    Sound process { state with takers := state.takers ++ [⟨id, pin, .seeking⟩] } := by
  have same (taker call : Nat) :
      Took { state with takers := state.takers ++ [⟨id, pin, .seeking⟩] } taker call ↔ Took state taker call := by
    constructor
    · rintro ⟨command, found, took⟩
      rcases getElem?_concat found with old | ⟨_, rfl⟩
      · exact ⟨command, old, took⟩
      · cases took
    · rintro ⟨command, found, took⟩
      exact ⟨command, getElem?_before found _, took⟩
  constructor
  · intro name entry present
    obtain ⟨call, found, formed, named, stage, untaken⟩ := sound.listed name entry present
    exact ⟨call, found, formed, named, stage, fun taker => (same taker _).not.mpr (untaken taker)⟩
  · intro index call found stage
    refine (sound.kept index call found stage).imp_right ?_
    rintro ⟨taker, took⟩
    exact ⟨taker, (same taker index).mpr took⟩
  · intro index taker target found took
    rcases getElem?_concat found with old | ⟨_, rfl⟩
    · exact sound.owned index taker target old took
    · cases took
  · intro first second target firstTook secondTook
    exact sound.once first second target ((same _ _).mp firstTook) ((same _ _).mp secondTook)
  · intro index call found something
    obtain ⟨holder, taker, at_holder, delivered⟩ := sound.sent index call found something
    exact ⟨holder, taker, getElem?_before at_holder _, delivered⟩

/-- A step of one command that takes no entry: it finds nothing or is refused. -/
theorem Sound.setTaker (sound : Sound process state) {index : Nat} {old new : Taker}
    (found : state.takers[index]? = some old) (id : new.id = old.id) (took : new.grant.took = old.grant.took)
    (unsent : ∀ call, old.grant ≠ .delivered call)
    (settled : ∀ target call, old.grant.took = some target → state.calls[target]? = some call →
      Settled call old → Settled call new) : Sound process (state.setTaker index new) := by
  have takers (other : Nat) : (state.takers.set index new)[other]? =
      if index = other then some new else state.takers[other]? := getElem?_set_found found new other
  have same (taker call : Nat) : Took (state.setTaker index new) taker call ↔ Took state taker call := by
    rw [took_setTaker found]
    split
    · rename_i here
      rw [took, ← here, took_of_found found]
    · rfl
  constructor
  · intro name entry present
    obtain ⟨call, at_sender, formed, named, stage, untaken⟩ := sound.listed name entry present
    exact ⟨call, at_sender, formed, named, stage, fun taker => (same taker _).not.mpr (untaken taker)⟩
  · intro other call at_other stage
    refine (sound.kept other call at_other stage).imp_right ?_
    rintro ⟨taker, taken⟩
    exact ⟨taker, (same taker other).mpr taken⟩
  · intro holder taker target at_holder taken
    simp only [State.setTaker, takers] at at_holder
    split at at_holder
    · cases at_holder
      obtain ⟨call, at_target, formed, stage, holds⟩ :=
        sound.owned index old target found (took ▸ taken)
      exact ⟨call, at_target, id.trans formed, stage, settled target call (took ▸ taken) at_target holds⟩
    · exact sound.owned holder taker target at_holder taken
  · intro first second target firstTook secondTook
    exact sound.once first second target ((same _ _).mp firstTook) ((same _ _).mp secondTook)
  · intro other call at_other something
    obtain ⟨holder, taker, at_holder, delivered⟩ := sound.sent other call at_other something
    have elsewhere : index ≠ holder := by
      rintro rfl
      rw [found] at at_holder
      cases at_holder
      exact unsent other delivered
    exact ⟨holder, taker, by simp [State.setTaker, takers, elsewhere, at_holder], delivered⟩

/-- Removing an entry hands its sender to one command. -/
theorem Sound.take (sound : Sound process state) {index : Nat} {id : RequestId} {pin : Pin}
    {entry : PendingAuthorization} (found : state.takers[index]? = some ⟨id, pin, .seeking⟩)
    (present : state.table.lookup id = some entry) :
    Sound process { state.setTaker index ⟨id, pin, .holding entry.sender⟩ with table := state.table.erase id } := by
  obtain ⟨call, at_sender, formed, named, stage, untaken⟩ := sound.listed id entry present
  have takers (other : Nat) : (state.takers.set index ⟨id, pin, .holding entry.sender⟩)[other]? =
      if index = other then some ⟨id, pin, .holding entry.sender⟩ else state.takers[other]? :=
    getElem?_set_found found _ other
  have now (taker target : Nat) :
      Took { state.setTaker index ⟨id, pin, .holding entry.sender⟩ with table := state.table.erase id }
        taker target ↔ (index = taker ∧ entry.sender = target) ∨ Took state taker target := by
    refine (took_setTaker found ⟨id, pin, .holding entry.sender⟩ taker target).trans ?_
    split
    · rename_i here
      subst here
      simp [Grant.took, took_of_found found]
    · rename_i elsewhere
      simp [elsewhere]
  have unsettled : call.queue = [] ∧ ∀ bytes, call.stage.result ≠ some (.ok bytes) := by
    have nothing : ¬ (call.queue ≠ [] ∨ ∃ bytes, call.stage.result = some (.ok bytes)) := by
      intro something
      obtain ⟨holder, taker, at_holder, delivered⟩ := sound.sent entry.sender call at_sender something
      exact untaken holder ⟨taker, at_holder, by rw [delivered]; rfl⟩
    simpa using nothing
  constructor
  · intro name other listed
    have different : name ≠ id := by
      rintro rfl
      rw [AList.lookup_erase] at listed
      cases listed
    obtain ⟨otherCall, at_other, otherFormed, otherNamed, otherStage, free⟩ :=
      sound.listed name other ((AList.lookup_erase_ne different).symm.trans listed)
    refine ⟨otherCall, at_other, otherFormed, otherNamed, otherStage, fun taker => (now taker _).not.mpr ?_⟩
    rintro (⟨_, same⟩ | taken)
    · exact different (otherFormed.trans ((congrArg (PinExchange.number process) same).symm.trans formed.symm))
    · exact free taker taken
  · intro other otherCall at_other otherStage
    by_cases own : PinExchange.number process other = id
    · rcases sound.kept other otherCall at_other otherStage with listed | ⟨taker, taken⟩
      · rw [own, present] at listed
        cases listed
        exact .inr ⟨index, (now index other).mpr (.inl ⟨rfl, rfl⟩)⟩
      · exact .inr ⟨taker, (now taker other).mpr (.inr taken)⟩
    · rcases sound.kept other otherCall at_other otherStage with listed | ⟨taker, taken⟩
      · exact .inl ((AList.lookup_erase_ne own).trans listed)
      · exact .inr ⟨taker, (now taker other).mpr (.inr taken)⟩
  · intro holder taker target at_holder taken
    simp only [State.setTaker, takers] at at_holder
    split at at_holder
    · cases at_holder
      cases taken
      refine ⟨call, at_sender, formed, ?_, unsettled⟩
      rintro unregistered
      rw [unregistered] at stage
      cases stage
    · exact sound.owned holder taker target at_holder taken
  · intro first second target firstTook secondTook
    rcases (now _ _).mp firstTook with ⟨rfl, rfl⟩ | firstOld
    · rcases (now _ _).mp secondTook with ⟨rfl, _⟩ | secondOld
      · rfl
      · exact absurd secondOld (untaken second)
    · rcases (now _ _).mp secondTook with ⟨rfl, rfl⟩ | secondOld
      · exact absurd firstOld (untaken first)
      · exact sound.once first second target firstOld secondOld
  · intro other otherCall at_other something
    obtain ⟨holder, taker, at_holder, delivered⟩ := sound.sent other otherCall at_other something
    have elsewhere : index ≠ holder := by
      rintro rfl
      rw [found] at at_holder
      cases at_holder
      cases delivered
    exact ⟨holder, taker, by simp [State.setTaker, takers, elsewhere, at_holder], delivered⟩

/-- Sending puts the value into the empty channel of the call. -/
theorem Sound.send (sound : Sound process state) {index target : Nat} {id : RequestId} {pin : Pin} {call : Call}
    (found : state.takers[index]? = some ⟨id, pin, .holding target⟩)
    (at_target : state.calls[target]? = some call) (listening : call.stage.listening) :
    Sound process
      ((state.setCall target { call with queue := [pin] }).setTaker index ⟨id, pin, .delivered target⟩) := by
  obtain ⟨held, at_held, formed, begun, empty, undecided⟩ := sound.owned index _ target found rfl
  rw [at_target] at at_held
  cases at_held
  have calls (other : Nat) : (state.calls.set target { call with queue := [pin] })[other]? =
      if target = other then some { call with queue := [pin] } else state.calls[other]? :=
    getElem?_set_found at_target _ other
  have takers (other : Nat) : (state.takers.set index ⟨id, pin, .delivered target⟩)[other]? =
      if index = other then some ⟨id, pin, .delivered target⟩ else state.takers[other]? :=
    getElem?_set_found found _ other
  have same (taker other : Nat) :
      Took ((state.setCall target { call with queue := [pin] }).setTaker index ⟨id, pin, .delivered target⟩)
        taker other ↔ Took state taker other := by
    refine (took_setTaker found ⟨id, pin, .delivered target⟩ taker other).trans ?_
    split
    · rename_i here
      subst here
      simp [Grant.took, took_of_found found]
    · rfl
  constructor
  · intro name entry present
    obtain ⟨listed, at_sender, entryFormed, named, stage, untaken⟩ := sound.listed name entry present
    have elsewhere : target ≠ entry.sender := by
      rintro rfl
      exact untaken index ⟨_, found, rfl⟩
    exact ⟨listed, by simp [State.setCall, State.setTaker, calls, elsewhere, at_sender], entryFormed, named,
      stage, fun taker => (same taker _).not.mpr (untaken taker)⟩
  · intro other otherCall at_other stage
    simp only [State.setCall, State.setTaker, calls] at at_other
    split at at_other
    · rename_i here
      subst here
      exact .inr ⟨index, (same index target).mpr ⟨_, found, rfl⟩⟩
    · refine (sound.kept other otherCall at_other stage).imp_right ?_
      rintro ⟨taker, taken⟩
      exact ⟨taker, (same taker other).mpr taken⟩
  · intro holder taker other at_holder taken
    simp only [State.setCall, State.setTaker, takers] at at_holder
    split at at_holder
    · cases at_holder
      cases taken
      exact ⟨{ call with queue := [pin] }, by simp [State.setCall, State.setTaker, calls], formed, begun,
        .inl ⟨rfl, listening, undecided⟩⟩
    · rename_i elsewhere
      obtain ⟨otherCall, at_other, otherFormed, stage, settled⟩ :=
        sound.owned holder taker other at_holder taken
      have different : target ≠ other := by
        rintro rfl
        exact elsewhere (sound.once index holder target ⟨_, found, rfl⟩ ⟨_, at_holder, taken⟩)
      exact ⟨otherCall, by simp [State.setCall, State.setTaker, calls, different, at_other], otherFormed,
        stage, settled⟩
  · intro first second other firstTook secondTook
    exact sound.once first second other ((same _ _).mp firstTook) ((same _ _).mp secondTook)
  · intro other otherCall at_other something
    simp only [State.setCall, State.setTaker, calls] at at_other
    split at at_other
    · rename_i here
      subst here
      exact ⟨index, ⟨id, pin, .delivered target⟩, by simp [State.setTaker, State.setCall, takers], rfl⟩
    · obtain ⟨holder, taker, at_holder, delivered⟩ := sound.sent other otherCall at_other something
      have elsewhere : index ≠ holder := by
        rintro rfl
        rw [found] at at_holder
        cases at_holder
        cases delivered
      exact ⟨holder, taker, by simp [State.setTaker, State.setCall, takers, elsewhere, at_holder], delivered⟩

/-- A call that is still waiting may go on or give up without any message being lost
or invented. -/
theorem Sound.waits (sound : Sound process state) (few : state.calls.length < 2 ^ 64) {index : Nat}
    {keyName : String} {queue : List Pin} {old new : Stage}
    (found : state.calls[index]? = some ⟨keyName, old, queue⟩) (waiting : old.result = none)
    (registered : new.registered = old.registered) (listening : new.listening) (begun : new ≠ .numbered)
    (undecided : ∀ bytes, new.result ≠ some (.ok bytes)) :
    Sound process (state.setCall index ⟨keyName, new, queue⟩) := by
  refine sound.setCall few found rfl registered begun ?_ ?_
  · intro taker _ settled
    cases grant : taker.grant with
    | delivered =>
      simp only [Settled, grant] at settled ⊢
      rcases settled with ⟨message, _, _⟩ | ⟨_, received⟩ | ⟨_, _, returned⟩
      · exact .inl ⟨message, listening, undecided⟩
      · rw [waiting] at received
        cases received
      · rw [returned] at waiting
        cases waiting
    | holding =>
      simp only [Settled, grant] at settled ⊢
      exact ⟨settled.1, undecided⟩
    | refused =>
      simp only [Settled, grant] at settled ⊢
      obtain ⟨_, _, returned⟩ := settled
      rw [returned] at waiting
      cases waiting
    | seeking => simp only [Settled, grant]
    | missing => simp only [Settled, grant]
  · rintro (message | ⟨bytes, received⟩)
    · exact .inl message
    · exact absurd received (undecided bytes)

/-- Every step keeps the invariant while the counter does not wrap. -/
theorem Sound.step (sound : Sound process state) (few : state.calls.length < 2 ^ 64) {action : Action}
    {next : State} (taken : PinExchange.step process state action = some next) : Sound process next := by
  cases moves_of_step process taken with
  | number keyName => exact sound.number keyName
  | insert found => exact sound.insert few found
  | received found =>
    refine sound.setCall few found rfl rfl nofun ?_ fun _ => .inl nofun
    intro taker _ settled
    cases grant : taker.grant <;> simp_all [Settled, Stage.result, Stage.listening]
  | empty found => exact sound.waits few found rfl rfl rfl nofun nofun
  | disconnected found => exact sound.waits few found rfl rfl rfl nofun nofun
  | waits found => exact sound.waits few found rfl rfl rfl nofun nofun
  | expires found => exact sound.waits few found rfl rfl rfl nofun nofun
  | repeats found => exact sound.waits few found rfl rfl rfl nofun nofun
  | cancels found => exact sound.waits few found rfl rfl rfl nofun nofun
  | remove found => exact sound.remove few found
  | @finish index keyName result queue found =>
    refine sound.setCall few found rfl rfl nofun ?_ ?_
    · intro taker _ settled
      cases result <;> cases grant : taker.grant <;> simp_all [Settled, Stage.result, Stage.listening]
    · rintro (message | decided)
      · exact absurd rfl message
      · exact .inr decided
  | command id pin => exact sound.command id pin
  | take found present => exact sound.take found present
  | miss found => exact sound.setTaker found rfl rfl nofun nofun
  | send found aimed listening => exact sound.send found aimed listening
  | @refuse index target id pin call found aimed deaf =>
    refine sound.setTaker found rfl rfl nofun ?_
    intro other otherCall took at_other settled
    cases took
    rw [aimed] at at_other
    cases at_other
    obtain ⟨empty, undecided⟩ := settled
    cases stage : call.stage with
    | returned result =>
      cases result with
      | error message => exact ⟨empty, message, stage⟩
      | ok bytes => exact absurd (by rw [stage]; rfl) (undecided bytes)
    | _ => exact absurd (by rw [stage]; rfl) deaf

/-! ## What follows -/

/-- A channel never holds more than one message. -/
theorem Sound.queue_le (sound : Sound process state) {index : Nat} {call : Call}
    (found : state.calls[index]? = some call) : call.queue.length ≤ 1 := by
  by_cases empty : call.queue = []
  · simp [empty]
  · obtain ⟨holder, taker, at_holder, delivered⟩ := sound.sent index call found (.inl empty)
    obtain ⟨other, at_index, _, _, settled⟩ :=
      sound.owned holder taker index at_holder (by rw [delivered]; rfl)
    rw [found] at at_index
    cases at_index
    simp only [Settled, delivered] at settled
    rcases settled with ⟨one, _⟩ | ⟨none, _⟩ | ⟨none, _⟩
    · simp [one]
    · exact absurd none empty
    · exact absurd none empty

/-- A command that holds a sender can always use it. -/
theorem Sound.send_enabled (sound : Sound process state) {index target : Nat} {id : RequestId} {pin : Pin}
    (found : state.takers[index]? = some ⟨id, pin, .holding target⟩) :
    (PinExchange.step process state (.send index)).isSome := by
  obtain ⟨call, at_target, _, _, empty, _⟩ := sound.owned index _ target found rfl
  simp only [PinExchange.step, found, at_target, empty, ↓reduceIte]
  split <;> rfl

/-- While a call polls, somebody holds its sender or has sent. -/
theorem Sound.connected (sound : Sound process state) {index : Nat} {call : Call}
    (found : state.calls[index]? = some call) (polling : call.stage = .polling) :
    tryRecv state index call ≠ .disconnected := by
  unfold tryRecv
  split
  · nofun
  · rename_i empty
    have sendable : state.sendable index = true := by
      rw [State.sendable, Bool.or_eq_true]
      rcases sound.kept index call found (by rw [polling]; rfl) with listed | ⟨holder, taker, at_holder, took⟩
      · refine .inl (List.any_eq_true.mpr ⟨⟨_, _⟩, AList.mem_lookup_iff.mp listed, by simp⟩)
      · obtain ⟨other, at_index, _, _, settled⟩ := sound.owned holder taker index at_holder took
        rw [found] at at_index
        cases at_index
        refine .inr (List.any_eq_true.mpr ⟨taker, List.mem_of_getElem? at_holder, ?_⟩)
        cases grant : taker.grant with
        | holding held =>
          rw [grant] at took
          cases took
          simp
        | delivered => simp_all [Settled, Stage.result]
        | refused => simp_all [Settled]
        | seeking =>
          rw [grant] at took
          cases took
        | missing =>
          rw [grant] at took
          cases took
    simp [sendable]

/-! ## Kept promises

A command that has sent its value reports success. The call keeps that promise if it
has not given up when the value arrives and does not give up before it looks. -/

/-- The call has the value or is about to find it. -/
def Keeps (call : Call) (pin : Pin) : Prop :=
  (call.queue = [pin] ∧ call.stage.result = none) ∨ call.stage.result = some (.ok pin.bytes)

/-- Every value that was sent is returned, or still can be. -/
def Truthful (state : State) : Prop :=
  ∀ (index : Nat) (taker : Taker) (target : Nat) (call : Call), state.takers[index]? = some taker →
    taker.grant = .delivered target → state.calls[target]? = some call → Keeps call taker.pin

/-- No call gives up while a value is in its channel, and no value is sent to a call
that has given up and still has its receiver. -/
def Careful (state : State) : Action → Prop
  | .deadline index true => ∀ call : Call, state.calls[index]? = some call → call.queue = []
  | .observe index true => ∀ call : Call, state.calls[index]? = some call → call.queue = []
  | .send index => ∀ (taker : Taker) (target : Nat) (call : Call), state.takers[index]? = some taker →
      taker.grant = .holding target → state.calls[target]? = some call → call.stage.listening →
      call.stage.result = none
  | _ => True

instance decidableCareful (state : State) (action : Action) : Decidable (Careful state action) :=
  match action with
  | .deadline index true => inferInstanceAs (Decidable (∀ call ∈ state.calls[index]?, call.queue = []))
  | .observe index true => inferInstanceAs (Decidable (∀ call ∈ state.calls[index]?, call.queue = []))
  | .send index =>
    decidable_of_iff (∀ taker ∈ state.takers[index]?, ∀ target ∈ taker.grant.took, taker.grant = .holding target →
        ∀ call ∈ state.calls[target]?, call.stage.listening → call.stage.result = none) (by
      constructor
      · intro checked taker target call found holding aimed
        exact checked taker found target (by rw [holding]; rfl) holding call aimed
      · intro careful taker found target _ holding call aimed
        exact careful taker target call found holding aimed)
  | .deadline _ false => .isTrue trivial
  | .observe _ false => .isTrue trivial
  | .number _ => .isTrue trivial
  | .insert _ => .isTrue trivial
  | .poll _ => .isTrue trivial
  | .remove _ => .isTrue trivial
  | .finish _ => .isTrue trivial
  | .command _ _ => .isTrue trivial
  | .take _ => .isTrue trivial

/-- A step of one call keeps promises if it keeps that call's own. -/
theorem Truthful.setCall (truthful : Truthful state) (table : Table) {index : Nat} {old new : Call}
    (found : state.calls[index]? = some old) (keeps : ∀ pin, Keeps old pin → Keeps new pin) :
    Truthful { state.setCall index new with table := table } := by
  intro holder taker target call at_holder delivered at_target
  simp only [State.setCall, getElem?_set_found found] at at_target
  split at at_target
  · rename_i here
    subst here
    cases at_target
    exact keeps _ (truthful holder taker index old at_holder delivered found)
  · exact truthful holder taker target call at_holder delivered at_target

/-- A step of one command keeps promises if it sends nothing. -/
theorem Truthful.setTaker (truthful : Truthful state) (table : Table) {index : Nat} {old new : Taker}
    (found : state.takers[index]? = some old) (unsent : ∀ target, new.grant ≠ .delivered target) :
    Truthful { state.setTaker index new with table := table } := by
  intro holder taker target call at_holder delivered at_target
  simp only [State.setTaker, getElem?_set_found found] at at_holder
  split at at_holder
  · cases at_holder
    exact absurd delivered (unsent target)
  · exact truthful holder taker target call at_holder delivered at_target

/-- A decided call keeps what it kept. -/
theorem Keeps.decided {old new : Call} {pin : Pin} (keeps : Keeps old pin) {result : Except String Bytes}
    (before : old.stage.result = some result) (after : new.stage.result = some result) : Keeps new pin := by
  rcases keeps with ⟨_, undecided⟩ | received
  · rw [undecided] at before
    cases before
  · exact .inr (after.trans (before.symm.trans received))

/-- A call that goes on waiting keeps what it kept. -/
theorem Keeps.undecided {keyName : String} {old new : Stage} {queue : List Pin} {pin : Pin}
    (keeps : Keeps ⟨keyName, old, queue⟩ pin) (before : old.result = none) (after : new.result = none) :
    Keeps ⟨keyName, new, queue⟩ pin := by
  rcases keeps with ⟨message, _⟩ | received
  · exact .inl ⟨message, after⟩
  · rw [before] at received
    cases received

/-- A waiting call without a message has promised nothing. -/
theorem not_keeps_empty {keyName : String} {stage : Stage} {pin : Pin} (waiting : stage.result = none) :
    ¬ Keeps ⟨keyName, stage, []⟩ pin := by
  rintro (⟨message, _⟩ | received)
  · cases message
  · rw [waiting] at received
    cases received

/-- Every careful step keeps the exchange truthful. -/
theorem Truthful.step (truthful : Truthful state) (sound : Sound process state) {action : Action}
    (careful : Careful state action) {next : State}
    (taken : PinExchange.step process state action = some next) : Truthful next := by
  cases moves_of_step process taken with
  | number keyName =>
    intro holder taker target call at_holder delivered at_target
    obtain ⟨old, at_old, _⟩ := sound.owned holder taker target at_holder (by rw [delivered]; rfl)
    have same := (getElem?_before at_old _).symm.trans at_target
    cases same
    exact truthful holder taker target _ at_holder delivered at_old
  | insert found => exact truthful.setCall _ found fun pin keeps => keeps.undecided rfl rfl
  | received found =>
    refine truthful.setCall state.table found fun other keeps => ?_
    rcases keeps with ⟨message, _⟩ | impossible
    · cases message
      exact .inr rfl
    · cases impossible
  | empty found => exact truthful.setCall state.table found fun pin keeps => keeps.undecided rfl rfl
  | disconnected found cut => exact absurd cut (sound.connected found rfl)
  | waits found => exact truthful.setCall state.table found fun pin keeps => keeps.undecided rfl rfl
  | @expires index keyName queue found =>
    obtain rfl : queue = [] := careful _ found
    exact truthful.setCall state.table found fun pin keeps => absurd keeps (not_keeps_empty rfl)
  | repeats found => exact truthful.setCall state.table found fun pin keeps => keeps.undecided rfl rfl
  | @cancels index keyName queue found =>
    obtain rfl : queue = [] := careful _ found
    exact truthful.setCall state.table found fun pin keeps => absurd keeps (not_keeps_empty rfl)
  | remove found => exact truthful.setCall _ found fun pin keeps => keeps.decided rfl rfl
  | finish found => exact truthful.setCall state.table found fun pin keeps => keeps.decided rfl rfl
  | command id pin =>
    intro holder taker target call at_holder delivered at_target
    rcases getElem?_concat at_holder with old | ⟨_, rfl⟩
    · exact truthful holder taker target call old delivered at_target
    · cases delivered
  | take found present => exact truthful.setTaker _ found nofun
  | miss found => exact truthful.setTaker state.table found nofun
  | @send index target id pin call found aimed listening room =>
    intro holder taker other otherCall at_holder delivered at_other
    simp only [State.setTaker, State.setCall, getElem?_set_found found] at at_holder
    simp only [State.setTaker, State.setCall, getElem?_set_found aimed] at at_other
    split at at_holder
    · cases at_holder
      cases delivered
      rw [if_pos rfl] at at_other
      cases at_other
      exact .inl ⟨rfl, careful _ _ call found rfl aimed listening⟩
    · rename_i elsewhere
      have different : target ≠ other := by
        rintro rfl
        exact elsewhere (sound.once index holder target ⟨_, found, rfl⟩ ⟨_, at_holder, by rw [delivered]; rfl⟩)
      rw [if_neg different] at at_other
      exact truthful holder taker other otherCall at_holder delivered at_other
  | refuse found => exact truthful.setTaker state.table found nofun

end

end Keyvisor.PinExchange
