import Keyvisor.KeyStore

/-!
# What listing and loading return

The listing of any directory depends only on the entries that it reads, and on the
order in which the directory names them. That order is not under the store's
control, so a directory is described by all results that a listing of it can have.
-/

namespace Keyvisor.KeyStore

open Foundation Foundation.Text Foundation.Directory RecordCodec

/-- A listing of the directory can return this result. -/
def Lists (place : Place) (result : Except StoreError (List StoredKey)) : Prop :=
  ∃ enumeration : Enumeration, (execute enumeration.order list place).1 = result

/-- The names that a listing of the view reads, in some order. -/
structure RecordNames (view : Name → Option File) (names : List Name) : Prop where
  distinct : names.Nodup
  exact : ∀ name, name ∈ names ↔ isRecordName name ∧ (view name).isSome

/-- The result of reading the names in this order. -/
def collect (view : Name → Option File) (names : List Name) : Except StoreError (List StoredKey) :=
  (names.mapM (readEntry view)).map fun found => found.mergeSort idLe

/-- No names collect no records. -/
theorem collect_nil (view : Name → Option File) : collect view [] = .ok [] := by
  simp [collect, pure, Except.pure, Except.map]

/-- Reading names depends on the entries under them. -/
theorem readEntries_congr {view other : Name → Option File} {names : List Name}
    (same : ∀ name ∈ names, other name = view name) :
    names.mapM (readEntry other) = names.mapM (readEntry view) := by
  induction names with
  | nil => rfl
  | cons name rest inductionHypothesis =>
    rw [List.mapM_cons, List.mapM_cons, readEntry, readEntry, same name List.mem_cons_self,
      inductionHypothesis fun name member => same name (List.mem_cons_of_mem _ member)]

/-- The directory that names these entries first and everything else afterwards. -/
def Enumeration.leading (files : Files) (names : List Name)
    (perm : (names ++ files.keys.filter (fun name => !isRecordName name)).Perm files.keys) : Enumeration where
  order listed := if listed = files.keys then names ++ files.keys.filter (fun name => !isRecordName name)
    else listed
  perm listed := by
    split
    · rename_i same
      exact same ▸ perm
    · exact List.Perm.refl _

/-- Every listing reads the record names in some order, and every order is that of
some listing. -/
theorem lists_iff {place : Place} {view : Name → Option File} (stands : Stands place view)
    (result : Except StoreError (List StoredKey)) :
    Lists place result ↔ ∃ names, RecordNames view names ∧ collect view names = result := by
  rcases stands with ⟨mode, files, rfl, shown⟩ | ⟨rfl, rfl⟩
  · obtain rfl : files.lookup = view := funext shown
    constructor
    · rintro ⟨enumeration, lists⟩
      rw [execute_list_directory] at lists
      refine ⟨(enumeration.order files.keys).filter isRecordName, ⟨?_, fun name => ?_⟩, lists⟩
      · exact ((enumeration.perm _).nodup_iff.mpr files.keys_nodup).filter _
      · rw [List.mem_filter, (enumeration.perm _).mem_iff, and_comm, AList.lookup_isSome]
        rfl
    · rintro ⟨names, ⟨distinct, exact⟩, collects⟩
      have member (name : Name) : name ∈ files.keys ↔ (files.lookup name).isSome := by
        rw [AList.lookup_isSome]
        rfl
      have reordered : (names ++ files.keys.filter (fun name => !isRecordName name)).Perm files.keys := by
        apply (List.perm_ext_iff_of_nodup ?_ files.keys_nodup).mpr
        · intro name
          rw [List.mem_append, exact, List.mem_filter, member]
          by_cases named : isRecordName name = true
          · simp [named]
          · simp [named]
        · apply List.Nodup.append distinct (files.keys_nodup.filter _)
          intro name early late
          have named := ((exact name).mp early).1
          have other := (List.mem_filter.mp late).2
          simp [named] at other
      refine ⟨Enumeration.leading files names reordered, ?_⟩
      have records : names.filter isRecordName = names :=
        List.filter_eq_self.mpr fun name member => ((exact name).mp member).1
      have others : (files.keys.filter (fun name => !isRecordName name)).filter isRecordName = [] := by
        rw [List.filter_eq_nil_iff]
        intro name member named
        have other := (List.mem_filter.mp member).2
        simp [named] at other
      rw [execute_list_directory]
      simp only [Enumeration.leading, ↓reduceIte, List.filter_append, records, others, List.append_nil]
      exact collects
  · constructor
    · rintro ⟨enumeration, rfl⟩
      exact ⟨[], ⟨List.nodup_nil, by simp⟩, collect_nil _⟩
    · rintro ⟨names, ⟨_, exact⟩, rfl⟩
      have none : names = [] := by
        rw [List.eq_nil_iff_forall_not_mem]
        intro name member
        simpa using (exact name).mp member
      subst none
      exact ⟨⟨id, fun _ => List.Perm.refl _⟩, (collect_nil _).symm⟩

/-- What a load makes of the entry under its name. -/
def loadFile : Option File → Except StoreError StoredKey
  | none => .error (.io .noSuchFile)
  | some file => if file.kind = .directory then .error (.io .isADirectory) else decode file.contents

/-- Loading reads one entry. -/
theorem execute_load_stands (enumerate : List Name → List Name) {place : Place}
    {view : Name → Option File} (stands : Stands place view) (id : KeyId) :
    execute enumerate (load id) place = (loadFile (view (pathFor id)), place) := by
  simp only [load, execute_bind, execute_reporting, execute_demand, run_read, lookup_of_stands stands]
  cases view (pathFor id) with
  | none => rfl
  | some file =>
    by_cases folder : file.kind = .directory
    · simp only [Option.elim_some, Except.bind, contentsOf, loadFile, folder, ↓reduceIte, Except.mapError]
    · simp only [Option.elim_some, Except.bind, contentsOf, loadFile, folder, ↓reduceIte, Except.mapError,
        execute_lift]

/-- Loading and listing return the same on both places. -/
structure SameAnswers (before after : Place) : Prop where
  loads : ∀ (enumeration : Enumeration) (id : KeyId),
    (execute enumeration.order (load id) after).1 = (execute enumeration.order (load id) before).1
  lists : ∀ result, Lists after result ↔ Lists before result

/-- A place answers as itself. -/
theorem SameAnswers.refl (place : Place) : SameAnswers place place := ⟨fun _ _ => rfl, fun _ => Iff.rfl⟩

/-- The names that a listing or a load reads. -/
def Read (name : Name) : Prop := isRecordName name ∨ ∃ id, name = pathFor id

/-- Reading depends on the entries under the names that are read. -/
theorem sameAnswers_of_views {before after : Place} {view other : Name → Option File}
    (stands : Stands before view) (again : Stands after other) (same : ∀ name, Read name → other name = view name) :
    SameAnswers before after where
  loads enumeration id := by
    rw [execute_load_stands _ stands, execute_load_stands _ again, same _ (.inr ⟨id, rfl⟩)]
  lists result := by
    have names (listed : List Name) : RecordNames other listed ↔ RecordNames view listed := by
      have agrees (name : Name) : (isRecordName name ∧ (other name).isSome) ↔
          (isRecordName name ∧ (view name).isSome) :=
        and_congr_right fun named => by rw [same name (.inl named)]
      constructor
      · rintro ⟨distinct, exact⟩
        exact ⟨distinct, fun name => (exact name).trans (agrees name)⟩
      · rintro ⟨distinct, exact⟩
        exact ⟨distinct, fun name => (exact name).trans (agrees name).symm⟩
    have collects (listed : List Name) (recorded : RecordNames view listed) :
        collect other listed = collect view listed := by
      rw [collect, collect, readEntries_congr fun name member =>
        same name (.inl ((recorded.exact name).mp member).1)]
    rw [lists_iff stands, lists_iff again]
    constructor
    · rintro ⟨listed, recorded, rfl⟩
      rw [names] at recorded
      exact ⟨listed, recorded, (collects listed recorded).symm⟩
    · rintro ⟨listed, recorded, rfl⟩
      exact ⟨listed, (names listed).mpr recorded, collects listed recorded⟩

end Keyvisor.KeyStore
