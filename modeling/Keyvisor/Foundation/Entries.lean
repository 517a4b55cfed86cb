import Keyvisor.Foundation.Faults

/-!
# What one operation does to the entries

For routines that several processes run in one directory at once, a proof about one
routine cannot follow the directory from its own start to its own end. What remains is
the single operation: which entry it changes, and how its answer tells.
-/

namespace Keyvisor.Foundation

namespace Directory

/-- The entry under a name, if there is one. -/
def Place.entry : Place → Name → Option File
  | directory _ files, name => files.lookup name
  | _, _ => none

/-- A write that was answered with success is complete; a failed one leaves a part. -/
def Wrote (before after : Name → Option File) (name : Name) (bytes : Bytes) : Except IoError Unit → Prop
  | .ok _ => ∀ file, before name = some file →
      after = Function.update before name (some { file with contents := file.contents ++ bytes })
  | .error _ => True

/-- The entries before and after an answered operation. -/
def Effect (before after : Name → Option File) : (operation : Operation) → Answer operation → Prop
  | .createNew name mode, .ok _ => after = Function.update before name (some ⟨.regular, mode, []⟩)
  | .writeAll name bytes, answer => Wrote before after name bytes answer ∧
      ∀ other, other ≠ name → after other = before other
  | .rename source target, .ok _ => ∃ file, before source = some file ∧
      after = Function.update (Function.update before source none) target (some file)
  | .removeFile name, .ok _ => after = Function.update before name none
  | _, _ => after = before

/-- An inserted file changes its own entry. -/
theorem entry_insert (mode : Nat) (files : Files) (name : Name) (file : File) :
    (Place.directory mode (files.insert name file)).entry =
      Function.update (Place.directory mode files).entry name (some file) := by
  funext other
  by_cases same : other = name
  · subst same
    simp [Place.entry]
  · simp [Place.entry, same]

/-- An erased file leaves its own entry empty. -/
theorem entry_erase (mode : Nat) (files : Files) (name : Name) :
    (Place.directory mode (files.erase name)).entry =
      Function.update (Place.directory mode files).entry name none :=
  funext (lookup_erase name fun _ => rfl)

/-- A write changes only the entry it writes to, and appends to it. -/
theorem effect_append (mode : Nat) (files : Files) (name : Name) (bytes : Bytes) :
    Effect (Place.directory mode files).entry (Place.directory mode (files.append name bytes)).entry
      (.writeAll name bytes) (.ok ()) := by
  unfold Files.append
  split
  · rename_i missing
    refine ⟨fun file found => ?_, fun _ _ => rfl⟩
    rw [Place.entry, missing] at found
    cases found
  · rename_i held found
    rw [entry_insert]
    refine ⟨fun file same => ?_, fun other apart => Function.update_of_ne apart _ _⟩
    obtain rfl := Option.some.inj (found.symm.trans same)
    rfl

/-- What a performed operation does. -/
theorem effect_perform (enumerate : List Name → List Name) (operation : Operation) (place : Place) :
    Effect place.entry (perform enumerate operation place).2.entry operation
      (perform enumerate operation place).1 := by
  cases operation with
  | createDirectory mode =>
    cases place with
    | absent => exact funext fun _ => AList.lookup_empty _
    | occupied kind => rfl
    | directory mode files => rfl
  | protectDirectory mode => cases place <;> rfl
  | openDirectory => cases place <;> rfl
  | createNew name mode =>
    cases place with
    | absent => rfl
    | occupied kind => rfl
    | directory directoryMode files =>
      simp only [perform, Place.onFiles, Files.createNew]
      by_cases taken : name ∈ files
      · simp only [taken, ↓reduceIte]
        rfl
      · simp only [taken, ↓reduceIte]
        exact entry_insert directoryMode files name _
  | writeAll name bytes =>
    cases place with
    | absent => exact ⟨trivial, fun _ _ => rfl⟩
    | occupied kind => exact ⟨trivial, fun _ _ => rfl⟩
    | directory directoryMode files => exact effect_append directoryMode files name bytes
  | rename source target =>
    cases place with
    | absent => rfl
    | occupied kind => rfl
    | directory directoryMode files =>
      simp only [perform, Place.onFiles, Files.rename]
      cases found : files.lookup source with
      | none => rfl
      | some file =>
        by_cases blocked : (files.lookup target).any (fun held => held.kind = .directory) = true
        · simp only [blocked, ↓reduceIte]
          rfl
        · simp only [blocked, Bool.false_eq_true, ↓reduceIte]
          refine ⟨file, found, ?_⟩
          rw [entry_insert, entry_erase]
  | removeFile name =>
    cases place with
    | absent => rfl
    | occupied kind => rfl
    | directory directoryMode files =>
      simp only [perform, Place.onFiles, Files.remove]
      cases found : files.lookup name with
      | none => rfl
      | some file =>
        by_cases blocked : file.kind = .directory
        · simp only [blocked, ↓reduceIte]
          rfl
        · simp only [blocked, ↓reduceIte]
          exact entry_erase directoryMode files name
  | _ => rfl

/-- A failed operation leaves the entries alone, except the one it was writing to. -/
theorem effect_disturbed (fault : Fault) (operation : Operation) (place : Place) :
    Effect place.entry (disturbed fault.written operation place).entry operation
      (refusal fault.error operation) := by
  cases operation with
  | writeAll name bytes =>
    refine ⟨trivial, fun other apart => ?_⟩
    exact (effect_perform id (.writeAll name (bytes.take fault.written)) place).2 other apart
  | _ => rfl

/-- What an operation does that is performed or fails. -/
theorem effect_attempt (enumerate : List Name → List Name) (faults : Faults) (operation : Operation)
    (place : Place) :
    Effect place.entry (attempt enumerate faults operation place).2.entry operation
      (attempt enumerate faults operation place).1 := by
  unfold attempt
  cases faults operation with
  | none => exact effect_perform enumerate operation place
  | some fault => exact effect_disturbed fault operation place

/-- What was read stood under that name. -/
theorem entry_of_read {enumerate : List Name → List Name} {faults : Faults} {name : Name} {place : Place}
    {bytes : Bytes} (found : (attempt enumerate faults (.read name) place).1 = (.ok bytes : Except IoError Bytes)) :
    ∃ file, place.entry name = some file ∧ file.contents = bytes := by
  unfold attempt at found
  cases struck : faults (.read name) with
  | some fault =>
    rw [struck] at found
    cases found
  | none =>
    rw [struck] at found
    have looked : (place.lookup name).bind contentsOf = .ok bytes := found
    cases place with
    | absent => cases looked
    | occupied kind => cases looked
    | directory mode files =>
      cases held : files.lookup name with
      | none => simp [Place.lookup, held, Except.bind] at looked
      | some file =>
        refine ⟨file, held, ?_⟩
        simp only [Place.lookup, held, Option.elim_some, Except.bind, contentsOf] at looked
        split at looked
        · cases looked
        · exact Except.ok.inj looked

end Directory

end Keyvisor.Foundation
