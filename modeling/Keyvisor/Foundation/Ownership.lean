import Mathlib.Data.List.Induction
import Mathlib.Data.List.Nodup

/-!
# Numbered tokens and their holders

A growing collection of holders, each with at most one token, and a counter from
which the tokens are minted. Every token below the counter has exactly one holder,
whatever the holders do with their own state and whenever a holder without a token
takes the next one.
-/

namespace Keyvisor.Foundation

section

variable {α : Type} {items : List α} {index : Nat} {item last : α}

/-- What is at a place after appending: what was there, or the last item. -/
theorem getElem?_concat (found : (items ++ [last])[index]? = some item) :
    items[index]? = some item ∨ (index = items.length ∧ item = last) := by
  rw [List.getElem?_append] at found
  split at found
  · exact .inl found
  · obtain ⟨inside, same⟩ := List.getElem?_eq_some_iff.mp found
    rw [List.length_singleton] at inside
    refine .inr ⟨by omega, ?_⟩
    rw [← same]
    simp

/-- A new last item leaves the earlier ones. -/
theorem getElem?_before (found : items[index]? = some item) (last : α) :
    (items ++ [last])[index]? = some item := by
  rw [List.getElem?_append_left (List.getElem?_eq_some_iff.mp found).1]
  exact found

/-- A changed item is found in its place, and the others in theirs. -/
theorem getElem?_set_found (found : items[index]? = some item) (new : α) (other : Nat) :
    (items.set index new)[other]? = if index = other then some new else items[other]? := by
  obtain ⟨inside, _⟩ := List.getElem?_eq_some_iff.mp found
  rw [List.getElem?_set]
  simp [inside]

/-- An item put where it was changes nothing. -/
theorem set_found (found : items[index]? = some item) : items.set index item = items := by
  obtain ⟨inside, here⟩ := List.getElem?_eq_some_iff.mp found
  rw [← here]
  exact List.set_getElem_self inside

/-- Different places of items with a property are no more than those items. -/
theorem length_le_countP (property : α → Bool) (items : List α) {places : List Nat} (distinct : places.Nodup)
    (holds : ∀ place ∈ places, ∃ item, items[place]? = some item ∧ property item) :
    places.length ≤ items.countP property := by
  induction items using List.reverseRecOn generalizing places with
  | nil =>
    cases places with
    | nil => exact Nat.le_refl 0
    | cons place rest =>
      obtain ⟨_, found, _⟩ := holds place List.mem_cons_self
      cases found
  | append_singleton items last inductionHypothesis =>
    have earlier (place : Nat) (member : place ∈ places.erase items.length) :
        ∃ item, items[place]? = some item ∧ property item := by
      obtain ⟨different, within⟩ := distinct.mem_erase_iff.mp member
      obtain ⟨item, found, satisfied⟩ := holds place within
      rcases getElem?_concat found with present | ⟨here, _⟩
      · exact ⟨item, present, satisfied⟩
      · exact absurd here different
    have fewer := inductionHypothesis (distinct.erase _) earlier
    rw [List.countP_append]
    by_cases member : items.length ∈ places
    · obtain ⟨item, found, satisfied⟩ := holds _ member
      obtain rfl : last = item := by simpa using found
      rw [List.length_erase_of_mem member] at fewer
      simp only [List.countP_singleton, satisfied, ↓reduceIte]
      omega
    · rw [List.erase_of_not_mem member] at fewer
      exact Nat.le_trans fewer (Nat.le_add_right _ _)

end

/-- Every token below the counter has exactly one holder, and there are no others. -/
structure Owned {α : Type} (holders : List α) (token : α → Option Nat) (count : Nat) : Prop where
  bounded : ∀ (index : Nat) (holder : α) (number : Nat), holders[index]? = some holder →
    token holder = some number → number < count
  distinct : ∀ (first second : Nat) (holder other : α) (number : Nat), holders[first]? = some holder →
    holders[second]? = some other → token holder = some number → token other = some number → first = second
  held : ∀ number : Nat, number < count →
    ∃ (index : Nat) (holder : α), holders[index]? = some holder ∧ token holder = some number

section

variable {α : Type} {holders : List α} {token : α → Option Nat} {count index : Nat} {old new : α}

/-- No items own no tokens. -/
theorem owned_nil : Owned ([] : List α) token 0 := by
  constructor <;> simp

/-- A new holder has no token yet. -/
theorem Owned.concat (owned : Owned holders token count) (without : token new = none) :
    Owned (holders ++ [new]) token count := by
  constructor
  · intro index holder number found holds
    rcases getElem?_concat found with earlier | ⟨_, rfl⟩
    · exact owned.bounded index holder number earlier holds
    · rw [without] at holds
      cases holds
  · intro first second holder other number at_first at_second firstHolds secondHolds
    rcases getElem?_concat at_first with first_earlier | ⟨_, rfl⟩
    · rcases getElem?_concat at_second with second_earlier | ⟨_, rfl⟩
      · exact owned.distinct first second holder other number first_earlier second_earlier firstHolds secondHolds
      · rw [without] at secondHolds
        cases secondHolds
    · rw [without] at firstHolds
      cases firstHolds
  · intro number below
    obtain ⟨index, holder, found, holds⟩ := owned.held number below
    exact ⟨index, holder, getElem?_before found _, holds⟩

/-- What another holder has, this one has not. -/
theorem Owned.elsewhere (owned : Owned holders token count) (found : holders[index]? = some old) {other : Nat}
    {holder : α} {number : Nat} (different : index ≠ other) (present : holders[other]? = some holder)
    (holds : token holder = some number) : token old ≠ some number := fun same =>
  different (owned.distinct index other old holder number found present same holds)

/-- A holder keeps its token. -/
theorem Owned.set (owned : Owned holders token count) (found : holders[index]? = some old)
    (same : token new = token old) : Owned (holders.set index new) token count := by
  have tokens (other : Nat) : (holders.set index new)[other]?.map token = holders[other]?.map token := by
    rw [getElem?_set_found found]
    split
    · rename_i here
      rw [← here, found, Option.map_some, Option.map_some, same]
    · rfl
  have before {other : Nat} {holder : α} (present : (holders.set index new)[other]? = some holder) :
      ∃ earlier, holders[other]? = some earlier ∧ token earlier = token holder := by
    have mapped := tokens other
    rw [present, Option.map_some] at mapped
    exact Option.map_eq_some_iff.mp mapped.symm
  constructor
  · intro other holder number present holds
    obtain ⟨earlier, at_other, unchanged⟩ := before present
    exact owned.bounded other earlier number at_other (unchanged.trans holds)
  · intro first second holder other number at_first at_second firstHolds secondHolds
    obtain ⟨firstEarlier, first_present, firstUnchanged⟩ := before at_first
    obtain ⟨secondEarlier, second_present, secondUnchanged⟩ := before at_second
    exact owned.distinct first second firstEarlier secondEarlier number first_present second_present
      (firstUnchanged.trans firstHolds) (secondUnchanged.trans secondHolds)
  · intro number below
    obtain ⟨other, holder, present, holds⟩ := owned.held number below
    have mapped := tokens other
    rw [present, Option.map_some] at mapped
    obtain ⟨later, at_other, unchanged⟩ := Option.map_eq_some_iff.mp mapped
    exact ⟨other, later, at_other, unchanged.trans holds⟩

/-- A holder without a token takes the next one. -/
theorem Owned.mint (owned : Owned holders token count) (found : holders[index]? = some old)
    (without : token old = none) (fresh : token new = some count) :
    Owned (holders.set index new) token (count + 1) := by
  have at_index (other : Nat) : (holders.set index new)[other]? =
      if index = other then some new else holders[other]? := getElem?_set_found found new other
  have unfresh {other : Nat} {holder : α} (present : holders[other]? = some holder) :
      token holder ≠ some count := fun holds =>
    absurd (owned.bounded other holder count present holds) (Nat.lt_irrefl count)
  constructor
  · intro other holder number present holds
    rw [at_index] at present
    split at present
    · cases present
      rw [fresh] at holds
      cases holds
      exact Nat.lt_succ_self count
    · exact Nat.lt_succ_of_lt (owned.bounded other holder number present holds)
  · intro first second holder other number at_first at_second firstHolds secondHolds
    rw [at_index] at at_first at_second
    split at at_first
    · rename_i isFirst
      cases at_first
      rw [fresh] at firstHolds
      cases firstHolds
      split at at_second
      · rename_i isSecond
        exact isFirst.symm.trans isSecond
      · exact absurd secondHolds (unfresh at_second)
    · split at at_second
      · cases at_second
        rw [fresh] at secondHolds
        cases secondHolds
        exact absurd firstHolds (unfresh at_first)
      · exact owned.distinct first second holder other number at_first at_second firstHolds secondHolds
  · intro number below
    by_cases newest : number = count
    · exact ⟨index, new, by rw [at_index, if_pos rfl], newest ▸ fresh⟩
    · obtain ⟨other, holder, present, holds⟩ := owned.held number (by omega)
      have different : index ≠ other := by
        rintro rfl
        rw [found] at present
        cases present
        rw [without] at holds
        cases holds
      exact ⟨other, holder, by rw [at_index, if_neg different]; exact present, holds⟩

end

end Keyvisor.Foundation
