import Keyvisor.Foundation.BigEndian
import Keyvisor.Foundation.IoError
import Keyvisor.Foundation.Program
import Mathlib.Data.List.AList

/-!
# One directory of files

The operations that a routine issues against one directory, and the directory
that answers them. Names are byte strings without a separator; a file has a
kind, a permission mode and contents. Creation is exclusive, rename replaces its
target in one step, and a removed name is gone at once.

The handler below never fails on its own: it refuses only what a directory in
that state refuses. Listing order is not a property of the directory, so it is a
parameter of the handler. Durability is not observable in one run; the sync
operations are kept because a routine must issue them.
-/

namespace Keyvisor.Foundation

namespace Directory

abbrev Name := Bytes

/-- What an entry is. -/
inductive FileKind where
  | regular
  | directory
  | symlink
  | special
  deriving DecidableEq, Repr

/-- A directory entry. The contents of a symbolic link are those read through it. -/
structure File where
  kind : FileKind
  mode : Nat
  contents : Bytes
  deriving DecidableEq, Repr

abbrev Files := AList (fun _ : Name => File)

/-- What stands at the directory's own path. -/
inductive Place where
  | absent
  | occupied (kind : FileKind)
  | directory (mode : Nat) (files : Files)

/-- The operations on one directory and its files. -/
inductive Operation where
  | inspectDirectory
  | inspectPath
  | createDirectory (mode : Nat)
  | protectDirectory (mode : Nat)
  | createNew (name : Name) (mode : Nat)
  | writeAll (name : Name) (bytes : Bytes)
  | syncFile (name : Name)
  | rename (source target : Name)
  | openDirectory
  | syncDirectory
  | removeFile (name : Name)
  | inspect (name : Name)
  | entryKind (name : Name)
  | read (name : Name)
  | readDirectory
  deriving DecidableEq, Repr

/-- The answer to each operation. Every one of them can fail. -/
def Answer : Operation → Type
  | .inspectDirectory => Except IoError FileKind
  | .inspectPath => Except IoError (FileKind × Nat)
  | .inspect _ => Except IoError (FileKind × Nat)
  | .entryKind _ => Except IoError FileKind
  | .read _ => Except IoError Bytes
  | .readDirectory => Except IoError (List Name)
  | _ => Except IoError Unit

/-- A routine over the directory with its own error type. -/
abbrev Task (ε : Type) := ExceptT ε (Program Operation Answer)

/-- Update the files of an existing directory; other places have no such file. -/
def Place.onFiles (place : Place) (action : Nat → Files → Except IoError Unit × Place) :
    Except IoError Unit × Place :=
  match place with
  | .directory mode files => action mode files
  | .occupied kind => (.error .notADirectory, .occupied kind)
  | .absent => (.error .noSuchFile, .absent)

/-- Look at one entry; a missing directory or entry is not found. -/
def Place.lookup (place : Place) (name : Name) : Except IoError File :=
  match place with
  | .directory _ files => (files.lookup name).elim (.error .noSuchFile) .ok
  | .occupied _ => .error .notADirectory
  | .absent => .error .noSuchFile

/-- The kind of what stands at the directory's path. -/
def Place.kind : Place → Except IoError FileKind
  | absent => .error .noSuchFile
  | occupied kind => .ok kind
  | directory _ _ => .ok .directory

/-- The kind and the mode of what stands at the directory's path. What is no directory
has every permission, as a symbolic link has; no routine asks for the mode of another kind. -/
def Place.metadata : Place → Except IoError (FileKind × Nat)
  | absent => .error .noSuchFile
  | occupied kind => .ok (kind, 0o777)
  | directory mode _ => .ok (.directory, mode)

/-- A missing directory is created empty; an existing one is kept. -/
def Place.create (mode : Nat) : Place → Except IoError Unit × Place
  | absent => (.ok (), directory mode ∅)
  | occupied kind => (.error .fileExists, occupied kind)
  | directory oldMode files => (.ok (), directory oldMode files)

/-- Exclusive creation of an empty regular file. -/
def Files.createNew (files : Files) (name : Name) (mode : Nat) : Except IoError Unit × Files :=
  if name ∈ files then (.error .fileExists, files)
  else (.ok (), files.insert name ⟨.regular, mode, []⟩)

/-- The write goes through an open handle, so an entry that has meanwhile lost
its name takes the bytes with it. -/
def Files.append (files : Files) (name : Name) (bytes : Bytes) : Files :=
  match files.lookup name with
  | none => files
  | some file => files.insert name { file with contents := file.contents ++ bytes }

/-- The target is replaced in one step, unless it is a directory. -/
def Files.rename (files : Files) (source target : Name) : Except IoError Unit × Files :=
  match files.lookup source with
  | none => (.error .noSuchFile, files)
  | some file =>
    if (files.lookup target).any (fun held => held.kind = .directory) then (.error .isADirectory, files)
    else (.ok (), (files.erase source).insert target file)

/-- Unlinking refuses a directory. -/
def Files.remove (files : Files) (name : Name) : Except IoError Unit × Files :=
  match files.lookup name with
  | none => (.error .noSuchFile, files)
  | some file =>
    if file.kind = .directory then (.error .isADirectory, files) else (.ok (), files.erase name)

/-- The bytes read at a name. -/
def contentsOf (file : File) : Except IoError Bytes :=
  if file.kind = .directory then .error .isADirectory else .ok file.contents

/-- The names in listing order. -/
def Place.names (enumerate : List Name → List Name) : Place → Except IoError (List Name)
  | absent => .error .noSuchFile
  | occupied _ => .error .notADirectory
  | directory _ files => .ok (enumerate files.keys)

/-- The directory's own behaviour on each operation. -/
def perform (enumerate : List Name → List Name) :
    (operation : Operation) → Place → Answer operation × Place
  | .inspectDirectory, place => (place.kind, place)
  | .inspectPath, place => (place.metadata, place)
  | .createDirectory mode, place => place.create mode
  | .protectDirectory mode, place => place.onFiles fun _ files => (.ok (), .directory mode files)
  | .createNew name mode, place => place.onFiles fun directoryMode files =>
      ((files.createNew name mode).1, .directory directoryMode (files.createNew name mode).2)
  | .writeAll name bytes, place => place.onFiles fun directoryMode files =>
      (.ok (), .directory directoryMode (files.append name bytes))
  | .syncFile _, place => (.ok (), place)
  | .rename source target, place => place.onFiles fun directoryMode files =>
      ((files.rename source target).1, .directory directoryMode (files.rename source target).2)
  | .openDirectory, place => place.onFiles fun directoryMode files =>
      (.ok (), .directory directoryMode files)
  | .syncDirectory, place => (.ok (), place)
  | .removeFile name, place => place.onFiles fun directoryMode files =>
      ((files.remove name).1, .directory directoryMode (files.remove name).2)
  | .inspect name, place => ((place.lookup name).map fun file => (file.kind, file.mode), place)
  | .entryKind name, place => ((place.lookup name).map File.kind, place)
  | .read name, place => ((place.lookup name).bind contentsOf, place)
  | .readDirectory, place => (place.names enumerate, place)

/-- A program that ends in the outcome of an operation. -/
abbrev Outcome (α : Type) := Program Operation Answer (Except IoError α)

def inspectDirectory : Outcome FileKind := Program.call Operation.inspectDirectory
def inspectPath : Outcome (FileKind × Nat) := Program.call Operation.inspectPath
def createDirectory (mode : Nat) : Outcome Unit := Program.call (Operation.createDirectory mode)
def protectDirectory (mode : Nat) : Outcome Unit := Program.call (Operation.protectDirectory mode)
def createNew (name : Name) (mode : Nat) : Outcome Unit := Program.call (Operation.createNew name mode)
def writeAll (name : Name) (bytes : Bytes) : Outcome Unit := Program.call (Operation.writeAll name bytes)
def syncFile (name : Name) : Outcome Unit := Program.call (Operation.syncFile name)
def rename (source target : Name) : Outcome Unit := Program.call (Operation.rename source target)
def openDirectory : Outcome Unit := Program.call Operation.openDirectory
def syncDirectory : Outcome Unit := Program.call Operation.syncDirectory
def removeFile (name : Name) : Outcome Unit := Program.call (Operation.removeFile name)
def inspect (name : Name) : Outcome (FileKind × Nat) := Program.call (Operation.inspect name)
def entryKind (name : Name) : Outcome FileKind := Program.call (Operation.entryKind name)
def read (name : Name) : Outcome Bytes := Program.call (Operation.read name)
def readDirectory : Outcome (List Name) := Program.call Operation.readDirectory

/-- Observe the outcome of one operation without stopping on its error. -/
def observe {ε α : Type} (outcome : Outcome α) : Task ε (Except IoError α) := liftM outcome

/-- Stop on the error of one operation. -/
def demand {α : Type} (outcome : Outcome α) : Task IoError α := ExceptT.mk outcome

/-- Report the error of an inner routine under another type. -/
def reporting {ε δ α : Type} (report : ε → δ) (task : Task ε α) : Task δ α := ExceptT.adapt report task

/-- The directory stands, or is created when it is missing. -/
def requireDirectory (mode : Nat) (wrongKind : String) : Except IoError FileKind → Task IoError Unit
  | .ok kind => if kind = .directory then pure () else throw ⟨.invalidInput, wrongKind⟩
  | .error error => if error.kind = .notFound then demand (createDirectory mode) else throw error

/-- Accept an existing directory, create a missing one, and set its mode. -/
def ensureDirectory (mode : Nat) (wrongKind : String) : Task IoError Unit := do
  let found ← observe inspectDirectory
  requireDirectory mode wrongKind found
  demand (protectDirectory mode)

/-- Create the first candidate whose name is free. Only an existing name moves
on to the next candidate. -/
def createFirst (mode : Nat) : List Name → Task IoError (Option Name)
  | [] => pure none
  | candidate :: rest => do
    match ← observe (createNew candidate mode) with
    | .ok _ => pure (some candidate)
    | .error error => if error.kind = .alreadyExists then createFirst mode rest else throw error

/-- Write, sync, rename over the target and sync the directory. -/
def commit (temporary target : Name) (bytes : Bytes) : Task IoError Unit := do
  demand (writeAll temporary bytes)
  demand (syncFile temporary)
  demand (rename temporary target)
  demand openDirectory
  demand syncDirectory

/-- A failed commit tries to remove its temporary file and keeps its own error. -/
def publish (temporary target : Name) (bytes : Bytes) : Task IoError Unit := do
  match ← observe (commit temporary target bytes).run with
  | .ok _ => pure ()
  | .error error => do
    let _ ← observe (removeFile temporary)
    throw error

/-- The result and the directory left behind, under one listing order. -/
def execute {ε α : Type} (enumerate : List Name → List Name) (task : Task ε α) (place : Place) :
    Except ε α × Place :=
  Program.execute (perform enumerate) task place

/-! ## Running routines -/

variable {ε δ α β : Type} (enumerate : List Name → List Name)

/-- A value is returned without a step. -/
@[simp] theorem execute_pure (value : α) (place : Place) :
    execute enumerate (pure value : Task ε α) place = (.ok value, place) := rfl

/-- An error is returned without a step. -/
@[simp] theorem execute_throw (error : ε) (place : Place) :
    execute enumerate (throw error : Task ε α) place = (.error error, place) := rfl

/-- The second task runs in what the first one leaves, unless that failed. -/
theorem execute_bind (task : Task ε α) (next : α → Task ε β) (place : Place) :
    execute enumerate (task >>= next) place = match execute enumerate task place with
      | (.ok value, reached) => execute enumerate (next value) reached
      | (.error error, reached) => (.error error, reached) := by
  unfold execute
  rw [Program.execute_bind]
  cases Program.execute (perform enumerate) task place with
  | mk result reached => cases result <;> rfl

/-- A result that is known is returned without a step. -/
@[simp] theorem execute_lift (result : Except ε α) (place : Place) :
    execute enumerate (liftM result : Task ε α) place = (result, place) := by
  cases result <;> rfl

/-- An observed operation returns its own outcome. -/
@[simp] theorem execute_observe (operation : Outcome α) (place : Place) :
    execute enumerate (observe operation : Task ε _) place =
      (.ok (operation.run (perform enumerate) place).1, (operation.run (perform enumerate) place).2) :=
  Program.execute_lift (perform enumerate) operation place

/-- A demanded operation fails with the task. -/
@[simp] theorem execute_demand (operation : Outcome α) (place : Place) :
    execute enumerate (demand operation) place = operation.run (perform enumerate) place := rfl

/-- A reported error is translated, and the steps stay. -/
@[simp] theorem execute_reporting (report : ε → δ) (task : Task ε α) (place : Place) :
    execute enumerate (reporting report task) place =
      ((execute enumerate task place).1.mapError report, (execute enumerate task place).2) := by
  let adapted : Except ε α → Program Operation Answer (Except δ α) := fun result =>
    .done (result.mapError report)
  show Program.run (perform enumerate) (task.run >>= adapted) place = _
  rw [Program.run_bind]
  rfl

/-- A directory is inspected for its kind. -/
@[simp] theorem run_inspectDirectory (place : Place) :
    inspectDirectory.run (perform enumerate) place = (place.kind, place) := rfl

/-- A directory is created where there is nothing. -/
@[simp] theorem run_createDirectory (mode : Nat) (place : Place) :
    (createDirectory mode).run (perform enumerate) place = place.create mode := rfl

/-- A directory gets its mode. -/
@[simp] theorem run_protectDirectory (mode directoryMode : Nat) (files : Files) :
    (protectDirectory mode).run (perform enumerate) (.directory directoryMode files) =
      (.ok (), .directory mode files) := rfl

/-- A new file is created in the files of a directory. -/
@[simp] theorem run_createNew (name : Name) (mode directoryMode : Nat) (files : Files) :
    (createNew name mode).run (perform enumerate) (.directory directoryMode files) =
      ((files.createNew name mode).1, .directory directoryMode (files.createNew name mode).2) := rfl

/-- Bytes are appended to a file of a directory. -/
@[simp] theorem run_writeAll (name : Name) (bytes : Bytes) (directoryMode : Nat) (files : Files) :
    (writeAll name bytes).run (perform enumerate) (.directory directoryMode files) =
      (.ok (), .directory directoryMode (files.append name bytes)) := rfl

/-- A sync of a file changes nothing that is seen. -/
@[simp] theorem run_syncFile (name : Name) (place : Place) :
    (syncFile name).run (perform enumerate) place = (.ok (), place) := rfl

/-- A file of a directory is renamed. -/
@[simp] theorem run_rename (source target : Name) (directoryMode : Nat) (files : Files) :
    (rename source target).run (perform enumerate) (.directory directoryMode files) =
      ((files.rename source target).1, .directory directoryMode (files.rename source target).2) := rfl

/-- A directory is opened. -/
@[simp] theorem run_openDirectory (directoryMode : Nat) (files : Files) :
    openDirectory.run (perform enumerate) (.directory directoryMode files) =
      (.ok (), .directory directoryMode files) := rfl

/-- A sync of the directory changes nothing that is seen. -/
@[simp] theorem run_syncDirectory (place : Place) :
    syncDirectory.run (perform enumerate) place = (.ok (), place) := rfl

/-- A file of a directory is removed. -/
@[simp] theorem run_removeFile (name : Name) (directoryMode : Nat) (files : Files) :
    (removeFile name).run (perform enumerate) (.directory directoryMode files) =
      ((files.remove name).1, .directory directoryMode (files.remove name).2) := rfl

/-- A file is inspected for its kind and mode. -/
@[simp] theorem run_inspect (name : Name) (place : Place) :
    (inspect name).run (perform enumerate) place =
      ((place.lookup name).map (fun file => (file.kind, file.mode)), place) := rfl

/-- An entry is looked at for its kind. -/
@[simp] theorem run_entryKind (name : Name) (place : Place) :
    (entryKind name).run (perform enumerate) place = ((place.lookup name).map File.kind, place) := rfl

/-- A regular file is read whole. -/
@[simp] theorem run_read (name : Name) (place : Place) :
    (read name).run (perform enumerate) place = ((place.lookup name).bind contentsOf, place) := rfl

/-- A directory is enumerated. -/
@[simp] theorem run_readDirectory (place : Place) :
    readDirectory.run (perform enumerate) place = (place.names enumerate, place) := rfl

/-! ## What a directory shows

A directory is observed by name; the order of its entries is never part of what
it shows. -/

/-- The place is a directory whose entries are exactly those of the view. -/
def Shows (place : Place) (view : Name → Option File) : Prop :=
  ∃ mode files, place = .directory mode files ∧ ∀ name, files.lookup name = view name

/-- The place is such a directory, or is still missing and the view is empty. -/
def Stands (place : Place) (view : Name → Option File) : Prop :=
  Shows place view ∨ place = .absent ∧ view = fun _ => none

/-- Looking up a name is looking it up in the view. -/
theorem lookup_of_stands {place : Place} {view : Name → Option File} (stands : Stands place view)
    (name : Name) : place.lookup name = (view name).elim (.error .noSuchFile) .ok := by
  rcases stands with ⟨mode, files, rfl, shown⟩ | ⟨rfl, rfl⟩
  · rw [← shown]
    rfl
  · rfl

/-- A place shows one view only. -/
theorem Stands.unique {place : Place} {view other : Name → Option File} (stands : Stands place view)
    (again : Stands place other) : view = other := by
  rcases stands with ⟨_, files, rfl, shown⟩ | ⟨rfl, rfl⟩
  · rcases again with ⟨_, _, same, shownAgain⟩ | ⟨impossible, _⟩
    · obtain ⟨_, rfl⟩ := Place.directory.inj same
      exact funext fun name => (shown name).symm.trans (shownAgain name)
    · cases impossible
  · rcases again with ⟨_, _, impossible, _⟩ | ⟨_, rfl⟩
    · cases impossible
    · rfl

/-- An existing directory is kept and a missing one becomes an empty directory. -/
theorem execute_ensureDirectory (mode : Nat) (wrongKind : String) (place : Place)
    (view : Name → Option File) (stands : Stands place view) :
    ∃ reached, execute enumerate (ensureDirectory mode wrongKind) place = (.ok (), reached) ∧
      Shows reached view := by
  rcases stands with ⟨oldMode, files, rfl, shown⟩ | ⟨rfl, rfl⟩
  · exact ⟨.directory mode files, rfl, mode, files, rfl, shown⟩
  · exact ⟨.directory mode ∅, rfl, mode, ∅, rfl, fun name => rfl⟩

/-- A file put under a name is all that changes. -/
theorem shows_insert {files : Files} {view : Name → Option File} (directoryMode : Nat) (name : Name)
    (file : File) (entries : ∀ name, files.lookup name = view name) :
    Shows (.directory directoryMode (files.insert name file)) (Function.update view name (some file)) := by
  refine ⟨directoryMode, _, rfl, fun other => ?_⟩
  by_cases same : other = name
  · subst same
    simp
  · rw [AList.lookup_insert_ne same, Function.update_of_ne same, entries]

/-- A name that is taken out is all that changes. -/
theorem lookup_erase {files : Files} {view : Name → Option File} (name : Name)
    (entries : ∀ name, files.lookup name = view name) (other : Name) :
    (files.erase name).lookup other = Function.update view name none other := by
  by_cases same : other = name
  · subst same
    simp
  · rw [AList.lookup_erase_ne same, Function.update_of_ne same, entries]

/-- Creating a free name adds one empty file to what the directory shows. -/
theorem shows_createNew {files : Files} {view : Name → Option File} {candidate : Name}
    (directoryMode mode : Nat) (entries : ∀ name, files.lookup name = view name)
    (free : view candidate = none) :
    (files.createNew candidate mode).1 = .ok () ∧
      Shows (.directory directoryMode (files.createNew candidate mode).2)
        (Function.update view candidate (some ⟨.regular, mode, []⟩)) := by
  have absent : candidate ∉ files := by
    rw [← AList.lookup_eq_none, entries, free]
  simp only [Files.createNew, absent, ↓reduceIte, true_and]
  exact shows_insert directoryMode candidate _ entries

/-- Creating a taken name is refused and changes nothing. -/
theorem createNew_taken {files : Files} {view : Name → Option File} {candidate : Name} (mode : Nat)
    (entries : ∀ name, files.lookup name = view name) (taken : view candidate ≠ none) :
    files.createNew candidate mode = (.error .fileExists, files) := by
  have present : candidate ∈ files := by
    rw [← AList.lookup_isSome, entries]
    exact Option.isSome_iff_ne_none.mpr taken
  simp only [Files.createNew, present, ↓reduceIte]

/-- The first free candidate is created empty. -/
theorem execute_createFirst (mode : Nat) (candidates : List Name) (place : Place)
    (view : Name → Option File) (shown : Shows place view)
    (free : ∃ candidate ∈ candidates, view candidate = none) :
    ∃ candidate ∈ candidates, view candidate = none ∧ ∃ reached,
      execute enumerate (createFirst mode candidates) place = (.ok (some candidate), reached) ∧
      Shows reached (Function.update view candidate (some ⟨.regular, mode, []⟩)) := by
  obtain ⟨directoryMode, files, rfl, entries⟩ := shown
  induction candidates with
  | nil => simp at free
  | cons first rest inductionHypothesis =>
    by_cases available : view first = none
    · obtain ⟨creates, createdShows⟩ := shows_createNew directoryMode mode entries available
      refine ⟨first, List.mem_cons_self, available, _, ?_, createdShows⟩
      simp only [createFirst, execute_bind, execute_observe, run_createNew, creates, execute_pure]
    · obtain ⟨candidate, member, unused⟩ := free
      have later : candidate ∈ rest := by
        rcases List.mem_cons.mp member with rfl | later
        · exact absurd unused available
        · exact later
      obtain ⟨found, foundMember, foundFree, reached, runs, reachedShows⟩ :=
        inductionHypothesis ⟨candidate, later, unused⟩
      refine ⟨found, List.mem_cons_of_mem _ foundMember, foundFree, reached, ?_, reachedShows⟩
      have refusal : IoError.fileExists.kind = .alreadyExists := rfl
      simp only [createFirst, execute_bind, execute_observe, run_createNew,
        createNew_taken mode entries available, refusal, ↓reduceIte, runs]

/-- Writing to an empty file gives it the bytes written. -/
theorem shows_append {files : Files} {view : Name → Option File} {name : Name} (directoryMode mode : Nat)
    (bytes : Bytes) (entries : ∀ name, files.lookup name = view name)
    (fresh : view name = some ⟨.regular, mode, []⟩) :
    Shows (.directory directoryMode (files.append name bytes))
      (Function.update view name (some ⟨.regular, mode, bytes⟩)) := by
  simp only [Files.append, entries, fresh, List.nil_append]
  exact shows_insert directoryMode name _ entries

/-- Renaming over a name that is no directory moves the file. -/
theorem shows_rename {files : Files} {view : Name → Option File} {source target : Name} {file : File}
    (directoryMode : Nat) (entries : ∀ name, files.lookup name = view name) (present : view source = some file)
    (replaceable : ∀ held, view target = some held → held.kind ≠ .directory) :
    (files.rename source target).1 = .ok () ∧
      Shows (.directory directoryMode (files.rename source target).2)
        (Function.update (Function.update view source none) target (some file)) := by
  have free : (files.lookup target).any (fun held => held.kind = .directory) = false := by
    rw [entries]
    cases held : view target with
    | none => rfl
    | some other => simpa using replaceable other held
  have renames : files.rename source target = (.ok (), (files.erase source).insert target file) := by
    simp only [Files.rename, entries source, present, free, Bool.false_eq_true, ↓reduceIte]
  rw [renames]
  exact ⟨rfl, shows_insert directoryMode target file (lookup_erase source entries)⟩

/-- Removing takes one file out of what the directory shows, or is refused and
changes nothing. -/
theorem shows_remove {files : Files} {view : Name → Option File} (name : Name) (directoryMode : Nat)
    (entries : ∀ name, files.lookup name = view name) :
    ((files.remove name).1 = .ok () ∧ Shows (.directory directoryMode (files.remove name).2)
      (Function.update view name none)) ∨
    ∃ error, (files.remove name).1 = .error error ∧
      Shows (.directory directoryMode (files.remove name).2) view := by
  unfold Files.remove
  split
  · exact .inr ⟨_, rfl, directoryMode, files, rfl, entries⟩
  · split
    · exact .inr ⟨_, rfl, directoryMode, files, rfl, entries⟩
    · exact .inl ⟨rfl, directoryMode, _, rfl, lookup_erase name entries⟩

/-! ## Intermediate places -/

/-- Every place that a routine passes through has the property. -/
def Throughout (task : Task ε α) (place : Place) (property : Place → Prop) : Prop :=
  ∀ visited ∈ task.run.trail (perform enumerate) place, property visited

variable {enumerate}

/-- A returned value visits only the present place. -/
theorem throughout_pure {property : Place → Prop} {place : Place} (value : α) (holds : property place) :
    Throughout enumerate (pure value : Task ε α) place property := by
  intro visited passed
  rwa [List.mem_singleton.mp passed]

/-- A lifted check does not touch the place. -/
theorem throughout_lift {property : Place → Prop} {place : Place} (result : Except ε α)
    (holds : property place) : Throughout enumerate (liftM result : Task ε α) place property := by
  cases result <;> exact fun visited passed => List.mem_singleton.mp passed ▸ holds

/-- An error visits only the present place. -/
theorem throughout_throw {property : Place → Prop} {place : Place} (error : ε) (holds : property place) :
    Throughout enumerate (throw error : Task ε α) place property := by
  intro visited passed
  rwa [List.mem_singleton.mp passed]

/-- A part, followed by the rest wherever the part succeeds. -/
theorem Throughout.sequence {property : Place → Prop} {task : Task ε α} {next : α → Task ε β}
    {place : Place} (first : Throughout enumerate task place property)
    (rest : ∀ value reached, execute enumerate task place = (.ok value, reached) →
      Throughout enumerate (next value) reached property) :
    Throughout enumerate (task >>= next) place property := by
  intro visited passed
  rcases (Program.mem_trail_execute_bind _ _ _ _ _).mp passed with early | ⟨value, reached, runs, late⟩
  · exact first visited early
  · exact rest value reached runs visited late

/-- A part that is known to succeed, followed by the rest. -/
theorem Throughout.bind {property : Place → Prop} {task : Task ε α} {next : α → Task ε β}
    {place reached : Place} {value : α} (first : Throughout enumerate task place property)
    (runs : execute enumerate task place = (.ok value, reached))
    (rest : Throughout enumerate (next value) reached property) :
    Throughout enumerate (task >>= next) place property := by
  refine first.sequence fun other final ends => ?_
  rw [runs] at ends
  cases ends
  exact rest

/-- An observed outcome passes through the places of its own program. -/
theorem throughout_observe {property : Place → Prop} {outcome : Outcome α} {place : Place}
    (holds : ∀ visited ∈ outcome.trail (perform enumerate) place, property visited) :
    Throughout enumerate (observe outcome : Task ε _) place property := by
  let asked : Program Operation Answer (Except IoError α) := outcome
  let finish : Except IoError α → Program Operation Answer (Except ε (Except IoError α)) := fun value =>
    .done (Except.ok value)
  intro visited passed
  have split : visited ∈ (asked >>= finish).trail (perform enumerate) place := passed
  rcases (Program.mem_trail_bind _ _ _ _ _).mp split with early | late
  · exact holds visited early
  · rw [List.mem_singleton.mp late]
    exact holds _ (Program.final_mem_trail _ _ _)

/-- One operation passes through the place before it and the place after it. -/
theorem throughout_call {property : Place → Prop} (operation : Operation) {place : Place}
    (before : property place) (after : property (perform enumerate operation place).2) :
    ∀ visited ∈ (Program.call operation).trail (perform enumerate) place, property visited := by
  intro visited passed
  rcases List.mem_cons.mp passed with rfl | later
  · exact before
  · rwa [List.mem_singleton.mp later]

/-- A demanded operation visits what its trail visits. -/
theorem throughout_demand {property : Place → Prop} {outcome : Outcome α} {place : Place}
    (holds : ∀ visited ∈ outcome.trail (perform enumerate) place, property visited) :
    Throughout enumerate (demand outcome) place property := holds

/-- Reporting an error under another type passes through the same places. -/
theorem Throughout.reporting {property : Place → Prop} {task : Task ε α} {place : Place}
    (report : ε → δ) (holds : Throughout enumerate task place property) :
    Throughout enumerate (reporting report task) place property := by
  let adapted : Except ε α → Program Operation Answer (Except δ α) := fun result =>
    .done (result.mapError report)
  intro visited passed
  have split : visited ∈ (task.run >>= adapted).trail (perform enumerate) place := passed
  rcases (Program.mem_trail_bind _ _ _ _ _).mp split with early | late
  · exact holds visited early
  · rw [List.mem_singleton.mp late]
    exact holds _ (Program.final_mem_trail _ _ _)

/-- The places of a replacement in progress: apart from the temporary names and
the target nothing has changed, and the target is as before or complete. -/
def Replacing (view : Name → Option File) (temporaries : List Name) (target : Name) (file : File)
    (place : Place) : Prop :=
  ∃ shown, Stands place shown ∧ (∀ name, name ∉ temporaries → name ≠ target → shown name = view name) ∧
    (shown target = view target ∨ shown target = some file)

/-- The directory is prepared without changing what it shows. -/
theorem throughout_ensureDirectory (mode : Nat) (wrongKind : String) {place : Place}
    {view : Name → Option File} (stands : Stands place view) :
    Throughout enumerate (ensureDirectory mode wrongKind) place (Stands · view) := by
  rcases stands with ⟨oldMode, files, rfl, shown⟩ | ⟨rfl, rfl⟩
  · have same (mode : Nat) : Stands (.directory mode files) view := .inl ⟨mode, files, rfl, shown⟩
    refine Throughout.bind (throughout_observe (throughout_call _ (same oldMode) (same oldMode))) rfl ?_
    refine Throughout.bind (throughout_pure () (same oldMode)) rfl ?_
    exact throughout_demand (throughout_call _ (same oldMode) (same mode))
  · have empty (mode : Nat) : Stands (.directory mode ∅) (fun _ => none) := .inl ⟨mode, ∅, rfl, fun _ => rfl⟩
    have missing : Stands .absent (fun _ => none) := .inr ⟨rfl, rfl⟩
    refine Throughout.bind (throughout_observe (throughout_call _ missing missing)) rfl ?_
    refine Throughout.bind (throughout_demand (throughout_call _ missing (empty mode))) rfl ?_
    exact throughout_demand (throughout_call _ (empty mode) (empty mode))

/-- While candidates are tried nothing changes, until one of them is new. -/
theorem throughout_createFirst (mode : Nat) (candidates : List Name) {place : Place}
    {view : Name → Option File} (shown : Shows place view) :
    Throughout enumerate (createFirst mode candidates) place (fun visited => Shows visited view ∨
      ∃ candidate ∈ candidates, Shows visited
        (Function.update view candidate (some ⟨.regular, mode, []⟩))) := by
  obtain ⟨directoryMode, files, rfl, entries⟩ := shown
  have same : Shows (.directory directoryMode files) view := ⟨directoryMode, files, rfl, entries⟩
  induction candidates with
  | nil => exact throughout_pure none (.inl same)
  | cons first rest inductionHypothesis =>
    by_cases available : view first = none
    · obtain ⟨creates, created⟩ := shows_createNew directoryMode mode entries available
      have added : ∃ candidate ∈ first :: rest,
          Shows (.directory directoryMode (files.createNew first mode).2)
            (Function.update view candidate (some ⟨.regular, mode, []⟩)) :=
        ⟨first, List.mem_cons_self, created⟩
      have runs : execute enumerate (observe (createNew first mode) : Task IoError _)
          (.directory directoryMode files) =
            (.ok (.ok ()), .directory directoryMode (files.createNew first mode).2) := by
        rw [execute_observe, run_createNew, creates]
      refine Throughout.bind (throughout_observe (throughout_call _ (.inl same) (.inr added))) runs ?_
      exact throughout_pure _ (.inr added)
    · have refused := createNew_taken mode entries available
      have runs : execute enumerate (observe (createNew first mode) : Task IoError _)
          (.directory directoryMode files) =
            (.ok (.error .fileExists), .directory directoryMode files) := by
        rw [execute_observe, run_createNew, refused]
      have stays : Shows ((perform enumerate (.createNew first mode)
          (.directory directoryMode files)).2) view := by
        simp only [perform, Place.onFiles, refused]
        exact same
      refine Throughout.bind (throughout_observe (throughout_call _ (.inl same) (.inl stays))) runs ?_
      intro visited passed
      rcases inductionHypothesis visited passed with unchanged | ⟨candidate, member, added⟩
      · exact .inl unchanged
      · exact .inr ⟨candidate, List.mem_cons_of_mem _ member, added⟩

/-- Committing a fresh temporary file moves its bytes to the target and leaves no
other entry changed. The target changes at the rename alone, and by then the
bytes are complete. -/
theorem execute_commit (temporary target : Name) (bytes : Bytes) (mode : Nat) {place : Place}
    {view : Name → Option File} (apart : temporary ≠ target) (shown : Shows place view)
    (fresh : view temporary = some ⟨.regular, mode, []⟩)
    (replaceable : ∀ file, view target = some file → file.kind ≠ .directory) :
    ∃ reached, execute enumerate (commit temporary target bytes) place = (.ok (), reached) ∧
      Shows reached (Function.update (Function.update view temporary none) target
        (some ⟨.regular, mode, bytes⟩)) ∧
      Throughout enumerate (commit temporary target bytes) place
        (Replacing view [temporary] target ⟨.regular, mode, bytes⟩) := by
  obtain ⟨directoryMode, files, rfl, entries⟩ := shown
  let file : File := ⟨.regular, mode, bytes⟩
  obtain ⟨_, written, same, writtenEntries⟩ := shows_append directoryMode mode bytes entries fresh
  obtain ⟨rfl, writes⟩ := Place.directory.inj same
  have stillReplaceable (held : File)
      (stored : Function.update view temporary (some file) target = some held) : held.kind ≠ .directory := by
    rw [Function.update_of_ne apart.symm] at stored
    exact replaceable held stored
  obtain ⟨renames, renamed⟩ :=
    shows_rename directoryMode writtenEntries (Function.update_self _ _ _) stillReplaceable
  rw [Function.update_idem] at renamed
  let final : Place := .directory directoryMode (written.rename temporary target).2
  have writing : execute enumerate (demand (writeAll temporary bytes)) (.directory directoryMode files) =
      (.ok (), .directory directoryMode written) := by rw [execute_demand, run_writeAll, writes]
  have moving : execute enumerate (demand (rename temporary target)) (.directory directoryMode written) =
      (.ok (), final) := by rw [execute_demand, run_rename, renames]
  have before : Replacing view [temporary] target file (.directory directoryMode files) :=
    ⟨view, .inl ⟨_, _, rfl, entries⟩, fun _ _ _ => rfl, .inl rfl⟩
  have middle : Replacing view [temporary] target file (.directory directoryMode written) :=
    ⟨_, .inl ⟨_, _, rfl, writtenEntries⟩,
      fun name other _ => Function.update_of_ne (by simpa using other) _ _,
      .inl (Function.update_of_ne apart.symm _ _)⟩
  have after : Replacing view [temporary] target file final := by
    refine ⟨_, .inl renamed, fun name other elsewhere => ?_, .inr (Function.update_self _ _ _)⟩
    rw [Function.update_of_ne elsewhere, Function.update_of_ne (by simpa using other)]
  refine ⟨final, ?_, renamed, ?_⟩
  · simp only [commit, execute_bind, writing, moving, execute_demand, run_syncFile, run_openDirectory,
      run_syncDirectory, final]
  · have appended : Replacing view [temporary] target file
        (perform enumerate (.writeAll temporary bytes) (.directory directoryMode files)).2 :=
      (congrArg Prod.snd writing).symm ▸ middle
    refine Throughout.bind (throughout_demand (throughout_call _ before appended)) writing ?_
    refine Throughout.bind (throughout_demand (throughout_call _ middle middle)) (run_syncFile _ _ _) ?_
    refine Throughout.bind (throughout_demand (throughout_call _ middle after)) moving ?_
    refine Throughout.bind (throughout_demand (throughout_call _ after after)) (run_openDirectory _ _ _) ?_
    exact throughout_demand (throughout_call _ after after)

variable (enumerate) in
/-- Publishing is committing: the commit succeeds, so nothing is cleaned up. -/
theorem execute_publish (temporary target : Name) (bytes : Bytes) (mode : Nat) {place : Place}
    {view : Name → Option File} (apart : temporary ≠ target) (shown : Shows place view)
    (fresh : view temporary = some ⟨.regular, mode, []⟩)
    (replaceable : ∀ file, view target = some file → file.kind ≠ .directory) :
    ∃ reached, execute enumerate (publish temporary target bytes) place = (.ok (), reached) ∧
      Shows reached (Function.update (Function.update view temporary none) target
        (some ⟨.regular, mode, bytes⟩)) ∧
      Throughout enumerate (publish temporary target bytes) place
        (Replacing view [temporary] target ⟨.regular, mode, bytes⟩) := by
  obtain ⟨reached, commits, reachedShows, passes⟩ :=
    execute_commit temporary target bytes mode apart shown fresh replaceable
  have observed : (commit temporary target bytes).run.run (perform enumerate) place = (.ok (), reached) :=
    commits
  have runs : execute enumerate (observe (commit temporary target bytes).run : Task IoError _) place =
      (.ok (.ok ()), reached) := by rw [execute_observe, observed]
  have ends : reached ∈ (commit temporary target bytes).run.trail (perform enumerate) place := by
    have last := Program.final_mem_trail (perform enumerate) (commit temporary target bytes).run place
    rwa [observed] at last
  refine ⟨reached, ?_, reachedShows, ?_⟩
  · simp only [publish, execute_bind, runs, execute_pure]
  · exact (throughout_observe passes).bind runs (throughout_pure () (passes reached ends))

end Directory

end Keyvisor.Foundation
