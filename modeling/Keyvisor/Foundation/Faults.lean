import Keyvisor.Foundation.Crash
import Keyvisor.Foundation.Directory

/-!
# Directories whose operations fail

A pattern of failures says of every operation whether it is performed or fails.
A failed operation has no effect, except that a failed write may have taken any
number of leading bytes. A failure is not a report that an entry is missing: that
report is what the directory itself answers.

Under every pattern of failures, the routines that prepare a directory and replace
a file in it can be stopped only where everything but the temporary file is as
before, or where the target is complete.
-/

namespace Keyvisor.Foundation

namespace Directory

/-- A failure of one operation, with the number of bytes that a failing write had
already taken. -/
structure Fault where
  error : IoError
  written : Nat
  present : error.kind ≠ .notFound

/-- Which operations fail. -/
abbrev Faults := Operation → Option Fault

/-- The answer of a failed operation. -/
def refusal (error : IoError) : (operation : Operation) → Answer operation
  | .inspectDirectory => .error error
  | .inspectPath => .error error
  | .createDirectory _ => .error error
  | .protectDirectory _ => .error error
  | .createNew _ _ => .error error
  | .writeAll _ _ => .error error
  | .syncFile _ => .error error
  | .rename _ _ => .error error
  | .openDirectory => .error error
  | .syncDirectory => .error error
  | .removeFile _ => .error error
  | .inspect _ => .error error
  | .entryKind _ => .error error
  | .read _ => .error error
  | .readDirectory => .error error

/-- What a failed operation leaves behind: a write has taken its leading bytes. -/
def disturbed (written : Nat) : Operation → Place → Place
  | .writeAll name bytes, place => (perform id (.writeAll name (bytes.take written)) place).2
  | _, place => place

/-- The directory's behaviour under a pattern of failures. -/
def attempt (enumerate : List Name → List Name) (faults : Faults) (operation : Operation) (place : Place) :
    Answer operation × Place :=
  match faults operation with
  | none => perform enumerate operation place
  | some fault => (refusal fault.error operation, disturbed fault.written operation place)

/-- The result of a routine and the directory left behind, under failures. -/
def executeFaulty {ε α : Type} (enumerate : List Name → List Name) (faults : Faults) (task : Task ε α)
    (place : Place) : Except ε α × Place :=
  Program.execute (attempt enumerate faults) task place

/-- Every place at which a routine can be stopped. -/
def stops {ε α : Type} (enumerate : List Name → List Name) (faults : Faults) (task : Task ε α)
    (place : Place) : List Place :=
  task.run.trail (attempt enumerate faults) place

/-- Opening or syncing the directory fails. -/
def Unsynced (faults : Faults) : Prop :=
  faults .openDirectory ≠ none ∨ faults .syncDirectory ≠ none

variable {enumerate : List Name → List Name} {faults : Faults}

/-- One operation is performed or fails. -/
theorem meets_attempt {before crash : Place → Prop} {operation : Operation}
    {after : Answer operation → Place → Prop} (starts : ∀ place, before place → crash place)
    (performed : ∀ place, before place → faults operation = none →
      crash (perform enumerate operation place).2 ∧
        after (perform enumerate operation place).1 (perform enumerate operation place).2)
    (struck : ∀ place fault, before place → faults operation = some fault →
      crash (disturbed fault.written operation place) ∧
        after (refusal fault.error operation) (disturbed fault.written operation place)) :
    Program.Meets (attempt enumerate faults) before (Program.call operation) crash after := by
  apply Program.meets_call
  intro place start
  refine ⟨starts place start, ?_⟩
  unfold attempt
  cases struckBy : faults operation with
  | none => exact performed place start struckBy
  | some fault => exact struck place fault start struckBy

/-! ## Preparing the directory -/

/-- The place is a directory that shows what the starting place showed. -/
def Prepared (start place : Place) : Prop :=
  ∃ view, Stands start view ∧ Shows place view

/-- The place is the starting place, or the directory prepared from it. -/
def Kept (start place : Place) : Prop :=
  place = start ∨ Prepared start place

/-- A place that was kept and is a directory is prepared, whatever its mode. -/
theorem Kept.prepared {start : Place} {mode other : Nat} {files : Files}
    (kept : Kept start (.directory mode files)) : Prepared start (.directory other files) := by
  rcases kept with rfl | ⟨view, stands, _, _, same, shown⟩
  · exact ⟨files.lookup, .inl ⟨mode, files, rfl, fun _ => rfl⟩, other, files, rfl, fun _ => rfl⟩
  · obtain ⟨rfl, rfl⟩ := Place.directory.inj same
    exact ⟨view, stands, other, files, rfl, shown⟩

/-- Creating the directory keeps an existing one and gives an empty one otherwise. -/
theorem Kept.create {start place : Place} (mode : Nat) (kept : Kept start place) :
    Kept start (place.create mode).2 := by
  cases place with
  | occupied kind => exact kept
  | directory oldMode files => exact kept
  | absent =>
    rcases kept with rfl | ⟨_, _, _, _, impossible, _⟩
    · exact .inr ⟨fun _ => none, .inr ⟨rfl, rfl⟩, mode, ∅, rfl, fun _ => rfl⟩
    · cases impossible

/-- A directory that is created keeps what is seen. -/
theorem meets_createDirectory (mode : Nat) (start : Place) :
    Program.Meets (attempt enumerate faults) (Kept start) (createDirectory mode) (Kept start)
      (fun _ => Kept start) := by
  apply meets_attempt
  · exact fun _ kept => kept
  · exact fun _ kept _ => ⟨kept.create mode, kept.create mode⟩
  · exact fun _ _ kept _ => ⟨kept, kept⟩

/-- Only a directory can be protected. -/
theorem meets_protectDirectory (mode : Nat) (start : Place) :
    Program.Meets (attempt enumerate faults) (Kept start) (protectDirectory mode) (Kept start)
      (fun outcome place => Kept start place ∧ (outcome = .ok () → Prepared start place)) := by
  apply meets_attempt
  · exact fun _ kept => kept
  · intro place kept _
    cases place with
    | absent => exact ⟨kept, kept, nofun⟩
    | occupied kind => exact ⟨kept, kept, nofun⟩
    | directory oldMode files => exact ⟨.inr kept.prepared, .inr kept.prepared, fun _ => kept.prepared⟩
  · exact fun _ _ kept _ => ⟨kept, kept, nofun⟩

/-- A required directory is there, is created or is refused, and what is seen is kept. -/
theorem meets_requireDirectory (mode : Nat) (wrongKind : String) (found : Except IoError FileKind)
    (start : Place) :
    Program.Meets (attempt enumerate faults) (Kept start) (requireDirectory mode wrongKind found).run
      (Kept start) (fun _ => Kept start) := by
  cases found with
  | ok kind =>
    simp only [requireDirectory]
    split
    · exact Program.meets_done fun _ kept => ⟨kept, kept⟩
    · exact Program.meets_done fun _ kept => ⟨kept, kept⟩
  | error error =>
    simp only [requireDirectory]
    split
    · exact meets_createDirectory mode start
    · exact Program.meets_done fun _ kept => ⟨kept, kept⟩

/-- Preparing a directory never changes what it shows, and a success leaves a
directory. -/
theorem meets_ensureDirectory (mode : Nat) (wrongKind : String) (start : Place) :
    Program.Meets (attempt enumerate faults) (Kept start) (ensureDirectory mode wrongKind).run
      (Kept start) (fun outcome place => Kept start place ∧ (outcome = .ok () → Prepared start place)) := by
  have inspecting : Program.Meets (attempt enumerate faults) (Kept start) inspectDirectory
      (Kept start) (fun _ => Kept start) := by
    apply meets_attempt
    · exact fun _ kept => kept
    · exact fun _ kept _ => ⟨kept, kept⟩
    · exact fun _ _ kept _ => ⟨kept, kept⟩
  have protecting : Program.Meets (attempt enumerate faults) (Kept start) (protectDirectory mode)
      (Kept start) (fun outcome place => Kept start place ∧ (outcome = .ok () → Prepared start place)) :=
    meets_protectDirectory mode start
  refine Program.Meets.routine (inspecting.observed (ε := IoError)) (fun found => ?_) ?_
  · have following := Program.Meets.routine (meets_requireDirectory mode wrongKind found start)
      (fun _ => protecting) (fun _ _ kept => ⟨kept, nofun⟩)
    refine following.weaken ?_ (fun _ => id) (fun _ _ => id)
    rintro place ⟨_, _, kept⟩
    exact kept
  · rintro _ _ ⟨_, impossible, _⟩
    cases impossible

/-! ## Replacing a file -/

/-- Nothing differs from the view but the entry under a temporary name. -/
def Drafted (view : Name → Option File) (temporary : Name) (place : Place) : Prop :=
  ∃ added, Shows place (Function.update view temporary added)

/-- The directory shows the view with a new file under the target's name. -/
def Replaced (view : Name → Option File) (target : Name) (file : File) (place : Place) : Prop :=
  Shows place (Function.update view target (some file))

/-- The candidates have been tried: one of them, free before, is a new empty file,
or nothing has changed. -/
def Allocated (view : Name → Option File) (mode : Nat) (candidates : List Name) :
    Except IoError (Option Name) → Place → Prop
  | .ok (some temporary), place => temporary ∈ candidates ∧ view temporary = none ∧
      Shows place (Function.update view temporary (some ⟨.regular, mode, []⟩))
  | _, place => Shows place view

/-- While candidates are tried nothing changes but an entry that was free. -/
def Allocating (view : Name → Option File) (candidates : List Name) (place : Place) : Prop :=
  Shows place view ∨ ∃ temporary ∈ candidates, view temporary = none ∧ Drafted view temporary place

/-- One candidate is a new empty file, or nothing has changed. -/
def Created (view : Name → Option File) (mode : Nat) (candidate : Name) (outcome : Except IoError Unit)
    (place : Place) : Prop :=
  if outcome.isOk then
    view candidate = none ∧ Shows place (Function.update view candidate (some ⟨.regular, mode, []⟩))
  else Shows place view

/-- Of the candidates only the first free one is created, empty. -/
theorem meets_createFirst (mode : Nat) (candidates : List Name) (view : Name → Option File) :
    Program.Meets (attempt enumerate faults) (Shows · view) (createFirst mode candidates).run
      (Allocating view candidates) (Allocated view mode candidates) := by
  induction candidates with
  | nil => exact Program.meets_done fun _ shown => ⟨.inl shown, shown⟩
  | cons candidate rest inductionHypothesis =>
    have creating : Program.Meets (attempt enumerate faults) (Shows · view) (createNew candidate mode)
        (Allocating view (candidate :: rest)) (Created view mode candidate) := by
      apply meets_attempt
      · exact fun _ shown => .inl shown
      · rintro _ ⟨directoryMode, files, rfl, entries⟩ _
        simp only [perform, Place.onFiles]
        by_cases available : view candidate = none
        · obtain ⟨creates, created⟩ := shows_createNew directoryMode mode entries available
          rw [creates]
          exact ⟨.inr ⟨candidate, List.mem_cons_self, available, _, created⟩, available, created⟩
        · rw [createNew_taken mode entries available]
          exact ⟨.inl ⟨directoryMode, files, rfl, entries⟩, directoryMode, files, rfl, entries⟩
      · exact fun _ _ shown _ => ⟨.inl shown, shown⟩
    refine Program.Meets.routine (creating.observed (ε := IoError)) (fun outcome => ?_) ?_
    · cases outcome with
      | ok _ =>
        apply Program.meets_done
        rintro place ⟨_, ⟨⟩, free, created⟩
        exact ⟨.inr ⟨candidate, List.mem_cons_self, free, _, created⟩, List.mem_cons_self, free, created⟩
      | error error =>
        simp only
        split
        · refine inductionHypothesis.weaken ?_ ?_ ?_
          · rintro place ⟨_, ⟨⟩, shown⟩
            exact shown
          · rintro place (shown | ⟨temporary, member, drafted⟩)
            · exact .inl shown
            · exact .inr ⟨temporary, List.mem_cons_of_mem _ member, drafted⟩
          · rintro (_ | _ | temporary) place allocated
            · exact allocated
            · exact allocated
            · exact ⟨List.mem_cons_of_mem _ allocated.1, allocated.2⟩
        · apply Program.meets_done
          rintro place ⟨_, ⟨⟩, shown⟩
          exact ⟨.inl shown, shown⟩
    · rintro _ _ ⟨_, impossible, _⟩
      cases impossible

/-- The places of a replacement: the temporary file is in progress, or the target
is complete. -/
def Replacement (view : Name → Option File) (temporary target : Name) (file : File) (place : Place) : Prop :=
  Drafted view temporary place ∨ Replaced view target file place

/-- How a replacement ends: a success has replaced the target, and so has a failure
to sync the directory; any other failure has not. -/
def Concluded (faults : Faults) (view : Name → Option File) (temporary target : Name) (file : File) :
    Except IoError Unit → Place → Prop
  | .ok _, place => Replaced view target file place
  | .error _, place => Drafted view temporary place ∨ (Unsynced faults ∧ Replaced view target file place)

section Replacement

variable {view : Name → Option File} {temporary target : Name} {mode : Nat} {bytes : Bytes}

/-- Writing to the new file takes all bytes, or leading ones and fails. -/
theorem meets_writeAll :
    Program.Meets (attempt enumerate faults)
      (Shows · (Function.update view temporary (some ⟨.regular, mode, []⟩))) (writeAll temporary bytes)
      (Replacement view temporary target ⟨.regular, mode, bytes⟩)
      (fun outcome place => match outcome with
        | .ok _ => Shows place (Function.update view temporary (some ⟨.regular, mode, bytes⟩))
        | .error _ => Drafted view temporary place) := by
  have appended (written : Bytes) {place : Place}
      (shown : Shows place (Function.update view temporary (some ⟨.regular, mode, []⟩))) :
      (perform enumerate (.writeAll temporary written) place).1 = .ok () ∧
        Shows (perform enumerate (.writeAll temporary written) place).2
          (Function.update view temporary (some ⟨.regular, mode, written⟩)) := by
    obtain ⟨directoryMode, files, rfl, entries⟩ := shown
    have grown := shows_append directoryMode mode written entries (Function.update_self _ _ _)
    rw [Function.update_idem] at grown
    exact ⟨rfl, grown⟩
  apply meets_attempt
  · exact fun _ shown => .inl ⟨_, shown⟩
  · intro place shown _
    obtain ⟨answers, grown⟩ := appended bytes shown
    rw [answers]
    exact ⟨.inl ⟨_, grown⟩, grown⟩
  · intro place fault shown _
    exact ⟨.inl ⟨_, (appended _ shown).2⟩, _, (appended _ shown).2⟩

/-- Renaming replaces the target in one step, or fails and changes nothing. -/
theorem meets_rename (free : view temporary = none) :
    Program.Meets (attempt enumerate faults)
      (Shows · (Function.update view temporary (some ⟨.regular, mode, bytes⟩))) (rename temporary target)
      (Replacement view temporary target ⟨.regular, mode, bytes⟩)
      (fun outcome place => match outcome with
        | .ok _ => Replaced view target ⟨.regular, mode, bytes⟩ place
        | .error _ => Drafted view temporary place) := by
  apply meets_attempt
  · exact fun _ shown => .inl ⟨_, shown⟩
  · rintro _ ⟨directoryMode, files, rfl, entries⟩ _
    simp only [perform, Place.onFiles]
    have source : files.lookup temporary = some ⟨.regular, mode, bytes⟩ :=
      (entries temporary).trans (Function.update_self _ _ _)
    by_cases blocked : (files.lookup target).any (fun held => held.kind = .directory) = true
    · simp only [Files.rename, source, blocked, ↓reduceIte]
      exact ⟨.inl ⟨_, directoryMode, files, rfl, entries⟩, _, directoryMode, files, rfl, entries⟩
    · have replaceable (held : File) (stored : Function.update view temporary
          (some ⟨.regular, mode, bytes⟩) target = some held) : held.kind ≠ .directory := by
        intro kind
        rw [entries target, stored] at blocked
        exact blocked (by simp [kind])
      obtain ⟨renames, renamed⟩ :=
        shows_rename directoryMode entries (Function.update_self _ _ _) replaceable
      rw [Function.update_idem, ← free, Function.update_eq_self] at renamed
      rw [renames]
      exact ⟨.inr renamed, renamed⟩
  · exact fun _ _ shown _ => ⟨.inl ⟨_, shown⟩, _, shown⟩

/-- Syncing changes nothing any more. -/
theorem meets_opened_and_synced :
    Program.Meets (attempt enumerate faults) (Replaced view target ⟨.regular, mode, bytes⟩)
      (do demand openDirectory; demand syncDirectory : Task IoError Unit).run
      (Replacement view temporary target ⟨.regular, mode, bytes⟩)
      (Concluded faults view temporary target ⟨.regular, mode, bytes⟩) := by
  have opening : Program.Meets (attempt enumerate faults) (Replaced view target ⟨.regular, mode, bytes⟩)
      openDirectory (Replacement view temporary target ⟨.regular, mode, bytes⟩)
      (Concluded faults view temporary target ⟨.regular, mode, bytes⟩) := by
    apply meets_attempt
    · exact fun _ replaced => .inr replaced
    · rintro _ ⟨directoryMode, files, rfl, entries⟩ _
      exact ⟨.inr ⟨directoryMode, files, rfl, entries⟩, directoryMode, files, rfl, entries⟩
    · intro place fault replaced struck
      exact ⟨.inr replaced, .inr ⟨.inl (by rw [struck]; nofun), replaced⟩⟩
  have syncing : Program.Meets (attempt enumerate faults) (Replaced view target ⟨.regular, mode, bytes⟩)
      syncDirectory (Replacement view temporary target ⟨.regular, mode, bytes⟩)
      (Concluded faults view temporary target ⟨.regular, mode, bytes⟩) := by
    apply meets_attempt
    · exact fun _ replaced => .inr replaced
    · exact fun _ replaced _ => ⟨.inr replaced, replaced⟩
    · intro place fault replaced struck
      exact ⟨.inr replaced, .inr ⟨.inr (by rw [struck]; nofun), replaced⟩⟩
  exact Program.Meets.routine opening (fun _ => syncing) fun _ _ concluded => concluded

/-- A commit replaces the target or leaves a draft. -/
theorem meets_commit (free : view temporary = none) :
    Program.Meets (attempt enumerate faults)
      (Shows · (Function.update view temporary (some ⟨.regular, mode, []⟩)))
      (commit temporary target bytes).run
      (Replacement view temporary target ⟨.regular, mode, bytes⟩)
      (Concluded faults view temporary target ⟨.regular, mode, bytes⟩) := by
  have syncing : Program.Meets (attempt enumerate faults)
      (Shows · (Function.update view temporary (some ⟨.regular, mode, bytes⟩))) (syncFile temporary)
      (Replacement view temporary target ⟨.regular, mode, bytes⟩) (fun _ place =>
        Shows place (Function.update view temporary (some ⟨.regular, mode, bytes⟩))) := by
    apply meets_attempt
    · exact fun _ shown => .inl ⟨_, shown⟩
    · exact fun _ shown _ => ⟨.inl ⟨_, shown⟩, shown⟩
    · exact fun _ _ shown _ => ⟨.inl ⟨_, shown⟩, shown⟩
  apply Program.Meets.routine meets_writeAll
  · intro _
    apply Program.Meets.routine syncing
    · intro _
      apply Program.Meets.routine (meets_rename free)
      · exact fun _ => meets_opened_and_synced
      · exact fun _ _ drafted => .inl drafted
    · exact fun _ _ shown => .inl ⟨_, shown⟩
  · exact fun _ _ drafted => .inl drafted

/-- Removing the temporary file after a failure leaves a draft a draft, and finds
nothing to remove once the target is complete. -/
theorem meets_cleanUp (free : view temporary = none) (apart : temporary ≠ target) (property : Prop) :
    Program.Meets (attempt enumerate faults)
      (fun place => Drafted view temporary place ∨
        (property ∧ Replaced view target ⟨.regular, mode, bytes⟩ place))
      (removeFile temporary) (Replacement view temporary target ⟨.regular, mode, bytes⟩)
      (fun _ place => Drafted view temporary place ∨
        (property ∧ Replaced view target ⟨.regular, mode, bytes⟩ place)) := by
  have passing {place : Place} (reached : Drafted view temporary place ∨
      (property ∧ Replaced view target ⟨.regular, mode, bytes⟩ place)) :
      Replacement view temporary target ⟨.regular, mode, bytes⟩ place := reached.imp_right And.right
  have removed {place : Place} (reached : Drafted view temporary place ∨
      (property ∧ Replaced view target ⟨.regular, mode, bytes⟩ place)) :
      Drafted view temporary (perform enumerate (.removeFile temporary) place).2 ∨ (property ∧
        Replaced view target ⟨.regular, mode, bytes⟩ (perform enumerate (.removeFile temporary) place).2) := by
    rcases reached with ⟨added, directoryMode, files, rfl, entries⟩ | ⟨holds, directoryMode, files, rfl, entries⟩
    · left
      rcases shows_remove temporary directoryMode entries with ⟨_, shown⟩ | ⟨_, _, shown⟩
      · rw [Function.update_idem] at shown
        exact ⟨none, shown⟩
      · exact ⟨added, shown⟩
    · right
      have missing : files.lookup temporary = none := by
        rw [entries, Function.update_of_ne apart, free]
      simp only [perform, Place.onFiles, Files.remove, missing]
      exact ⟨holds, directoryMode, files, rfl, entries⟩
  apply meets_attempt
  · exact fun _ => passing
  · exact fun _ reached _ => ⟨passing (removed reached), removed reached⟩
  · exact fun _ _ reached _ => ⟨passing reached, reached⟩

variable (mode) in
/-- Publishing replaces the target or leaves at most a temporary file. -/
theorem meets_publish (free : view temporary = none) (apart : temporary ≠ target) :
    Program.Meets (attempt enumerate faults)
      (Shows · (Function.update view temporary (some ⟨.regular, mode, []⟩)))
      (publish temporary target bytes).run
      (Replacement view temporary target ⟨.regular, mode, bytes⟩)
      (Concluded faults view temporary target ⟨.regular, mode, bytes⟩) := by
  refine Program.Meets.routine ((meets_commit free).observed (ε := IoError)) (fun outcome => ?_) ?_
  · cases outcome with
    | ok _ =>
      apply Program.meets_done
      rintro place ⟨_, ⟨⟩, replaced⟩
      exact ⟨.inr replaced, replaced⟩
    | error error =>
      refine Program.Meets.routine (((meets_cleanUp free apart (Unsynced faults)).observed (ε := IoError)).weaken
        ?_ (fun _ => id) (fun _ _ => id)) (fun _ => ?_) ?_
      · rintro place ⟨_, ⟨⟩, concluded⟩
        exact concluded
      · apply Program.meets_done
        rintro place ⟨_, ⟨⟩, concluded⟩
        exact ⟨concluded.imp_right And.right, concluded⟩
      · rintro _ _ ⟨_, impossible, _⟩
        cases impossible
  · rintro _ _ ⟨_, impossible, _⟩
    cases impossible

end Replacement

/-! ## Rewriting one file of a starting place -/

section Rewriting

variable (start : Place) (candidates : List Name) (target : Name) (file : File)

/-- Nothing differs from the starting place but one temporary name that was free. -/
def Unpublished (place : Place) : Prop :=
  Kept start place ∨ ∃ view, Stands start view ∧
    ∃ temporary ∈ candidates, view temporary = none ∧ Drafted view temporary place

/-- The target is the new file and nothing else differs from the starting place. -/
def Published (place : Place) : Prop :=
  ∃ view, Stands start view ∧ Replaced view target file place

/-- The places at which a rewrite can be stopped. -/
def Rewriting (place : Place) : Prop :=
  Unpublished start candidates place ∨ Published start target file place

/-- How a rewrite ends. -/
def Rewritten (faults : Faults) {ε : Type} : Except ε Unit → Place → Prop
  | .ok _, place => Published start target file place
  | .error _, place => Unpublished start candidates place ∨
      (Unsynced faults ∧ Published start target file place)

/-- A new empty temporary file stands beside what the starting place showed. -/
def Opened (mode : Nat) (temporary : Name) (place : Place) : Prop :=
  temporary ∈ candidates ∧ ∃ view, Stands start view ∧ view temporary = none ∧
    Shows place (Function.update view temporary (some ⟨.regular, mode, []⟩))

/-- How trying the candidates ends. -/
def Chosen (mode : Nat) : Except IoError (Option Name) → Place → Prop
  | .ok (some temporary), place => Opened start candidates mode temporary place
  | _, place => Unpublished start candidates place

variable {start candidates target file}

/-- An opened temporary file is not published. -/
theorem Opened.unpublished {mode : Nat} {temporary : Name} {place : Place}
    (opened : Opened start candidates mode temporary place) : Unpublished start candidates place := by
  obtain ⟨member, view, stands, free, shown⟩ := opened
  exact .inr ⟨view, stands, temporary, member, free, _, shown⟩

/-- Preparing the directory of a rewrite. -/
theorem meets_preparing (mode : Nat) (wrongKind : String) :
    Program.Meets (attempt enumerate faults) (fun place => place = start) (ensureDirectory mode wrongKind).run
      (Rewriting start candidates target file)
      (fun outcome place => Kept start place ∧ (outcome = .ok () → Prepared start place)) :=
  (meets_ensureDirectory mode wrongKind start).weaken (fun _ same => .inl same)
    (fun _ kept => .inl (.inl kept)) (fun _ _ => id)

/-- Trying the candidates of a prepared directory. -/
theorem meets_opening (mode : Nat) :
    Program.Meets (attempt enumerate faults) (Prepared start) (createFirst mode candidates).run
      (Rewriting start candidates target file) (Chosen start candidates mode) := by
  apply Program.meets_of_each
  rintro place ⟨view, stands, shown⟩
  have prepared (reached : Place) (same : Shows reached view) : Unpublished start candidates reached :=
    .inl (.inr ⟨view, stands, same⟩)
  refine (meets_createFirst mode candidates view).weaken ?_ ?_ ?_
  · rintro _ rfl
    exact shown
  · rintro reached (same | ⟨temporary, member, free, drafted⟩)
    · exact .inl (prepared reached same)
    · exact .inl (.inr ⟨view, stands, temporary, member, free, drafted⟩)
  · rintro (_ | _ | temporary) reached allocated
    · exact prepared reached allocated
    · exact prepared reached allocated
    · exact ⟨allocated.1, view, stands, allocated.2⟩

/-- Publishing the new file of a rewrite. -/
theorem meets_rewriting {mode : Nat} {temporary : Name} {bytes : Bytes} (apart : temporary ≠ target) :
    Program.Meets (attempt enumerate faults) (Opened start candidates mode temporary)
      (publish temporary target bytes).run
      (Rewriting start candidates target ⟨.regular, mode, bytes⟩)
      (Rewritten start candidates target ⟨.regular, mode, bytes⟩ faults) := by
  apply Program.meets_of_each
  rintro place ⟨member, view, stands, free, shown⟩
  have drafts (reached : Place) (drafted : Drafted view temporary reached) :
      Unpublished start candidates reached := .inr ⟨view, stands, temporary, member, free, drafted⟩
  refine (meets_publish mode free apart).weaken ?_ ?_ ?_
  · rintro _ rfl
    exact shown
  · rintro reached (drafted | replaced)
    · exact .inl (drafts reached drafted)
    · exact .inr ⟨view, stands, replaced⟩
  · rintro (_ | _) reached concluded
    · rcases concluded with drafted | ⟨unsynced, replaced⟩
      · exact .inl (drafts reached drafted)
      · exact .inr ⟨unsynced, view, stands, replaced⟩
    · exact ⟨view, stands, concluded⟩

/-- The same from one place, with the failure as the caller reports it. -/
theorem meets_publishing {ε : Type} (report : IoError → ε) {mode : Nat} {temporary : Name} {bytes : Bytes}
    {place : Place} (apart : temporary ≠ target) (opened : Opened start candidates mode temporary place) :
    Program.Meets (attempt enumerate faults) (fun reached => reached = place)
      (ExceptT.adapt report (publish temporary target bytes)).run
      (Rewriting start candidates target ⟨.regular, mode, bytes⟩)
      (Rewritten start candidates target ⟨.regular, mode, bytes⟩ faults) := by
  refine ((meets_rewriting apart).adapt report).weaken ?_ (fun _ => id) ?_
  · rintro _ rfl
    exact opened
  · rintro _ reached ⟨_ | _, rfl, rewritten⟩
    · exact rewritten
    · exact rewritten

end Rewriting

end Directory

end Keyvisor.Foundation
