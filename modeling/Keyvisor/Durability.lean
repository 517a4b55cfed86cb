import Keyvisor.Foundation.Faults
import Keyvisor.History
import Keyvisor.Listing

/-!
# What persistence survives

The key store and the signing history under failing operations and under a stop at
any point. Both rewrite one file through a temporary one, so at every stop a later
reader sees the old contents or the new ones; leftover temporary files are invisible
because no temporary name is one that a listing reads.
-/

namespace Keyvisor.KeyStore

open Foundation Foundation.Text Foundation.Directory RecordCodec

/-! ## Names -/

/-- A name that a listing reads ends in the letter `y`. -/
theorem getLast_of_isRecordName {name : Name} (named : isRecordName name) :
    name.getLast? = some 121 := by
  have spelled : extension name = some (utf8 "key") := of_decide_eq_true named
  have ending : utf8 "key" = [107, 101, 121] := by decide
  unfold extension at spelled
  split at spelled
  · cases spelled
  · simp only at spelled
    split at spelled
    · cases spelled
    · split at spelled
      · cases spelled
      · have suffix : (name.reverse.takeWhile (· != 46)).reverse = [107, 101, 121] :=
          (Option.some.inj spelled).trans ending
        have leading : name.reverse.takeWhile (· != 46) = [121, 101, 107] := by
          rw [← List.reverse_reverse (name.reverse.takeWhile _), suffix]
          rfl
        obtain ⟨rest, split⟩ := leading ▸ List.takeWhile_prefix (l := name.reverse) (· != 46)
        rw [← List.head?_reverse, ← split]
        rfl

/-- The last letter of a record name is that of its suffix. -/
theorem getLast_pathFor (id : KeyId) : (pathFor id).getLast? = some 121 := by
  have ending : utf8 ".key" = [46, 107, 101] ++ [121] := by decide
  rw [pathFor, ending, ← List.append_assoc, List.getLast?_concat]

/-- The last letter of a temporary name is that of its suffix. -/
theorem getLast_temporaryName (pid : UInt32) (id : KeyId) (attempt : Nat) :
    (temporaryName pid id attempt).getLast? = some 112 := by
  have ending : utf8 ".tmp" = [46, 116, 109] ++ [112] := by decide
  rw [temporaryName, ending, ← List.append_assoc, List.getLast?_concat]

/-- No listing and no load reads a temporary file. -/
theorem temporaryName_hidden (pid : UInt32) (id : KeyId) (attempt : Nat) (name : Name)
    (read : Read name) : name ≠ temporaryName pid id attempt := by
  rintro rfl
  have ending := getLast_temporaryName pid id attempt
  rcases read with named | ⟨other, same⟩
  · rw [getLast_of_isRecordName named] at ending
    cases ending
  · rw [same, getLast_pathFor] at ending
    cases ending

/-! ## Saving -/

section Saving

variable {enumerate : List Name → List Name} {faults : Faults}

/-- The temporary names that a save tries. -/
def temporaryNames (pid : UInt32) (id : KeyId) : List Name := (List.range 100).map (temporaryName pid id)

/-- A save rewrites the file of its record, whatever fails and wherever it stops. -/
theorem meets_save (pid : UInt32) (key : StoredKey) (start : Place) :
    Program.Meets (attempt enumerate faults) (fun place => place = start) (save pid key).run
      (Rewriting start (temporaryNames pid key.summary.id) (pathFor key.summary.id) (recordFile key))
      (Rewritten start (temporaryNames pid key.summary.id) (pathFor key.summary.id) (recordFile key)
        faults) := by
  have unchanged (place : Place) (same : place = start) :
      Unpublished start (temporaryNames pid key.summary.id) place := .inl (.inl same)
  have apart (temporary : Name) (member : temporary ∈ temporaryNames pid key.summary.id) :
      temporary ≠ pathFor key.summary.id := by
    obtain ⟨attempt, _, rfl⟩ := List.mem_map.mp member
    exact (temporaryName_hidden pid key.summary.id attempt _ (.inr ⟨_, rfl⟩)).symm
  have checking : Program.Meets (attempt enumerate faults) (fun place => place = start)
      (liftM (validateRecord key) : Task StoreError Unit).run
      (Rewriting start (temporaryNames pid key.summary.id) (pathFor key.summary.id) (recordFile key))
      (fun _ place => place = start) :=
    Program.meets_check fun place same => ⟨.inl (unchanged place same), same⟩
  have encoding : Program.Meets (attempt enumerate faults) (fun place => place = start)
      (liftM (encode key) : Task StoreError Bytes).run
      (Rewriting start (temporaryNames pid key.summary.id) (pathFor key.summary.id) (recordFile key))
      (fun outcome place => outcome = encode key ∧ place = start) :=
    Program.meets_check fun place same => ⟨.inl (unchanged place same), rfl, same⟩
  refine checking.routine (fun _ => encoding.routine (fun bytes => ?_) ?_) ?_
  · apply Program.meets_of_each
    rintro _ ⟨encodes, rfl⟩
    obtain ⟨_, rfl⟩ := (encode_eq_ok _ _).mp encodes.symm
    refine Program.Meets.routine ((meets_preparing _ _).adapt StoreError.io) (fun _ => ?_) ?_
    · refine Program.Meets.routine (((meets_opening 0o600).adapt StoreError.io).weaken ?_ (fun _ => id) (fun _ _ => id))
        (fun temporary => ?_) ?_
      · rintro place ⟨_ | _, same, kept, prepared⟩
        · cases same
        · exact prepared rfl
      · cases temporary with
        | none =>
          apply Program.meets_done
          rintro place ⟨_ | _, ⟨⟩, unpublished⟩
          exact ⟨.inl unpublished, .inl unpublished⟩
        | some temporary =>
          apply Program.meets_of_each
          rintro place ⟨_ | _, ⟨⟩, opened⟩
          exact meets_publishing StoreError.io (apart temporary opened.1) opened
      · rintro _ place ⟨_ | _, same, unpublished⟩
        · exact .inl unpublished
        · cases same
    · rintro _ place ⟨_, _, kept, _⟩
      exact .inl (.inl kept)
  · rintro error place ⟨_, same⟩
    exact .inl (unchanged place same)
  · exact fun error place same => .inl (unchanged place same)

/-- Before the rename every answer is what it was. -/
theorem sameAnswers_of_unpublished {start place : Place} {pid : UInt32} {id : KeyId}
    (unpublished : Unpublished start (temporaryNames pid id) place) : SameAnswers start place := by
  rcases unpublished with (rfl | ⟨view, stands, shown⟩) | ⟨view, stands, temporary, member, _, added, shown⟩
  · exact .refl _
  · exact sameAnswers_of_views stands (.inl shown) fun _ _ => rfl
  · obtain ⟨attempt, _, rfl⟩ := List.mem_map.mp member
    exact sameAnswers_of_views stands (.inl shown) fun name read =>
      Function.update_of_ne (temporaryName_hidden pid id attempt name read) _ _

/-- The record's file is gone and nothing else differs from the starting place. -/
def Removed (start : Place) (id : KeyId) (place : Place) : Prop :=
  ∃ view, Stands start view ∧ Shows place (Function.update view (pathFor id) none)

/-- The places at which a deletion can be stopped. -/
def Deleting (start : Place) (id : KeyId) (place : Place) : Prop :=
  Kept start place ∨ Removed start id place

/-- How a deletion ends. -/
def Deleted (faults : Faults) (start : Place) (id : KeyId) : Except StoreError Unit → Place → Prop
  | .ok _, place => Removed start id place
  | .error _, place => SameAnswers start place ∨ (Unsynced faults ∧ Removed start id place)

/-- Unlinking the record's file takes it out of the directory, or changes nothing
that is read. -/
theorem meets_removeFile (start : Place) (id : KeyId) :
    Program.Meets (attempt enumerate faults) (fun place => place = start) (removeFile (pathFor id))
      (Deleting start id) (fun outcome place => match outcome with
        | .ok _ => Removed start id place
        | .error _ => SameAnswers start place) := by
  apply meets_attempt
  · exact fun _ same => .inl (.inl same)
  · rintro place rfl _
    cases place with
    | absent => exact ⟨.inl (.inl rfl), .refl _⟩
    | occupied kind => exact ⟨.inl (.inl rfl), .refl _⟩
    | directory mode files =>
      have stands : Stands (.directory mode files) files.lookup := .inl ⟨mode, files, rfl, fun _ => rfl⟩
      simp only [perform, Place.onFiles]
      rcases shows_remove (pathFor id) mode (fun _ => rfl : ∀ name, files.lookup name = files.lookup name) with
        ⟨removes, shown⟩ | ⟨error, refuses, shown⟩
      · rw [removes]
        exact ⟨.inr ⟨files.lookup, stands, shown⟩, files.lookup, stands, shown⟩
      · rw [refuses]
        exact ⟨.inl (.inr ⟨files.lookup, stands, shown⟩),
          sameAnswers_of_views stands (.inl shown) fun _ _ => rfl⟩
  · rintro place _ rfl _
    exact ⟨.inl (.inl rfl), .refl _⟩

/-- Syncing after the removal changes nothing any more. -/
theorem meets_syncStore (start : Place) (id : KeyId) :
    Program.Meets (attempt enumerate faults) (Removed start id) syncStore.run (Deleting start id)
      (fun outcome => Deleted faults start id (outcome.mapError .io)) := by
  have opening : Program.Meets (attempt enumerate faults) (Removed start id) openDirectory (Deleting start id)
      (fun outcome => Deleted faults start id (outcome.mapError .io)) := by
    apply meets_attempt
    · exact fun _ removed => .inr removed
    · rintro _ ⟨view, stands, mode, files, rfl, entries⟩ _
      exact ⟨.inr ⟨view, stands, mode, files, rfl, entries⟩, view, stands, mode, files, rfl, entries⟩
    · intro place fault removed struck
      exact ⟨.inr removed, .inr ⟨.inl (by rw [struck]; nofun), removed⟩⟩
  have syncing : Program.Meets (attempt enumerate faults) (Removed start id) syncDirectory (Deleting start id)
      (fun outcome => Deleted faults start id (outcome.mapError .io)) := by
    apply meets_attempt
    · exact fun _ removed => .inr removed
    · exact fun _ removed _ => ⟨.inr removed, removed⟩
    · intro place fault removed struck
      exact ⟨.inr removed, .inr ⟨.inr (by rw [struck]; nofun), removed⟩⟩
  exact Program.Meets.routine opening (fun _ => syncing) fun _ _ deleted => deleted

/-- A deletion removes the file of its record, or fails and changes no answer,
unless the failure is that of the directory sync. -/
theorem meets_delete (id : KeyId) (start : Place) :
    Program.Meets (attempt enumerate faults) (fun place => place = start) (delete id).run (Deleting start id)
      (Deleted faults start id) := by
  have refused (error : StoreError) : Program.Meets (attempt enumerate faults) (fun place => place = start)
      (throw error : Task StoreError Unit).run (Deleting start id) (Deleted faults start id) := by
    apply Program.meets_done
    rintro place rfl
    exact ⟨.inl (.inl rfl), .inl (.refl _)⟩
  have inspecting : Program.Meets (attempt enumerate faults) (fun place => place = start)
      (inspect (pathFor id)) (Deleting start id) (fun _ place => place = start) := by
    apply meets_attempt
    · exact fun _ same => .inl (.inl same)
    · exact fun _ same _ => ⟨.inl (.inl same), same⟩
    · exact fun _ _ same _ => ⟨.inl (.inl same), same⟩
  have inspected : Program.Meets (attempt enumerate faults) (fun place => place = start)
      (reporting StoreError.io (demand (inspect (pathFor id)))).run (Deleting start id)
      (fun _ place => place = start) := by
    refine (Program.Meets.adapt StoreError.io inspecting).weaken (fun _ same => same) (fun _ stopped => stopped) ?_
    rintro _ place ⟨_, _, same⟩
    exact same
  unfold delete
  split
  · exact refused _
  · refine inspected.routine (fun metadata => ?_) ?_
    · split
      · exact refused _
      · refine Program.Meets.routine (Program.Meets.adapt StoreError.io (meets_removeFile start id))
          (fun _ => ?_) ?_
        · refine (Program.Meets.adapt StoreError.io (meets_syncStore start id)).weaken ?_ (fun _ stopped => stopped) ?_
          · rintro place ⟨_ | _, same, removed⟩
            · cases same
            · exact removed
          · rintro _ place ⟨inner, rfl, deleted⟩
            exact deleted
        · rintro _ place ⟨_ | _, same, unchanged⟩
          · exact .inl unchanged
          · cases same
    · rintro _ place rfl
      exact .inl (.refl _)

/-- A deletion that succeeds without failures has removed the record's file. -/
theorem removed_of_delete {id : KeyId} {start reached : Place}
    (runs : execute enumerate (delete id) start = (.ok (), reached)) : Removed start id reached := by
  have unfailing : executeFaulty enumerate (fun _ => none) (delete id) start = (.ok (), reached) := runs
  have ended : Deleted (fun _ => none) start id
      (executeFaulty enumerate (fun _ => none) (delete id) start).1
      (executeFaulty enumerate (fun _ => none) (delete id) start).2 := (meets_delete id start start rfl).2
  rwa [unfailing] at ended

end Saving

/-! ## What later calls see -/

/-- The directory holds a well-formed store with these records. -/
def Stored (records : Records) (place : Place) : Prop :=
  ∃ view, WellFormed records view ∧ Stands place view

/-- A missing directory is a store without records. -/
theorem stored_absent : Stored (fun _ => none) .absent :=
  ⟨fun _ => none, ⟨nofun, nofun, fun _ _ => rfl, fun _ _ impossible => by cases impossible⟩, .inr ⟨rfl, rfl⟩⟩

/-- Later calls see exactly the records: a load answers with the record of its
identifier, and every listing returns all of them once in identifier order. -/
def Sees (records : Records) (place : Place) : Prop :=
  ∀ enumeration : Enumeration,
    (∀ id, execute enumeration.order (load id) place =
      ((records id).elim (.error (.io .noSuchFile)) .ok, place)) ∧
    ∃ keys, execute enumeration.order list place = (.ok keys, place) ∧
      (∀ key, key ∈ keys ↔ ∃ id, records id = some key) ∧
      keys.Pairwise (fun left right => utf8 left.summary.id.asStr < utf8 right.summary.id.asStr)

/-- Stored records are what a reader sees. -/
theorem Stored.sees {records : Records} {place : Place} (stored : Stored records place) :
    Sees records place := by
  obtain ⟨view, formed, stands⟩ := stored
  intro enumeration
  refine ⟨formed.execute_load enumeration.order stands, ?_⟩
  obtain ⟨keys, lists, members, ordered⟩ := formed.execute_list enumeration.order enumeration.perm stands
  refine ⟨keys, lists, fun key => ?_, ordered⟩
  rw [members]
  constructor
  · exact fun holds => ⟨_, holds⟩
  · rintro ⟨id, holds⟩
    rwa [(formed.keyed id key holds).1]

/-- Only the names that a listing or a load reads matter. -/
theorem WellFormed.congr {records : Records} {view other : Name → Option File}
    (formed : WellFormed records view)
    (same : ∀ name, Read name → other name = view name) :
    WellFormed records other where
  keyed := formed.keyed
  stored id key holds := by
    obtain ⟨mode, filed⟩ := formed.stored id key holds
    exact ⟨mode, (same _ (.inr ⟨id, rfl⟩)).trans filed⟩
  unused id missing := (same _ (.inr ⟨id, rfl⟩)).trans (formed.unused id missing)
  named name named present := by
    rw [same name (.inl named)] at present
    exact formed.named name named present

/-- Changing the file under a record's name changes what its identifier holds. -/
theorem WellFormed.update {records : Records} {view : Name → Option File} (formed : WellFormed records view)
    (id : KeyId) (value : Option StoredKey)
    (proper : ∀ key, value = some key → key.summary.id = id ∧ validateRecord key = .ok ()) :
    WellFormed (Function.update records id value)
      (Function.update view (pathFor id) (value.map recordFile)) where
  keyed other key holds := by
    by_cases same : other = id
    · subst same
      rw [Function.update_self] at holds
      exact proper key holds
    · rw [Function.update_of_ne same] at holds
      exact formed.keyed other key holds
  stored other key holds := by
    by_cases same : other = id
    · subst same
      rw [Function.update_self] at holds
      rw [Function.update_self, holds]
      exact ⟨0o600, rfl⟩
    · rw [Function.update_of_ne same] at holds
      rw [Function.update_of_ne fun equal => same (pathFor_injective equal)]
      exact formed.stored other key holds
  unused other missing := by
    by_cases same : other = id
    · subst same
      rw [Function.update_self] at missing
      rw [Function.update_self, missing, Option.map_none]
    · rw [Function.update_of_ne same] at missing
      rw [Function.update_of_ne fun equal => same (pathFor_injective equal)]
      exact formed.unused other missing
  named name named present := by
    by_cases same : name = pathFor id
    · exact ⟨_, same⟩
    · rw [Function.update_of_ne same] at present
      exact formed.named name named present

/-- A place that was kept stores what it stored. -/
theorem Stored.kept {records : Records} {start place : Place} (stored : Stored records start)
    (kept : Kept start place) : Stored records place := by
  obtain ⟨view, formed, stands⟩ := stored
  rcases kept with rfl | ⟨other, again, shown⟩
  · exact ⟨view, formed, stands⟩
  · obtain rfl := stands.unique again
    exact ⟨view, formed, .inl shown⟩

/-- Before the rename a store is what it was: a temporary file is never read. -/
theorem Stored.unpublished {records : Records} {start place : Place} {pid : UInt32} {id : KeyId}
    (stored : Stored records start) (unpublished : Unpublished start (temporaryNames pid id) place) :
    Stored records place := by
  rcases unpublished with kept | ⟨other, again, temporary, member, _, added, shown⟩
  · exact stored.kept kept
  · obtain ⟨view, formed, stands⟩ := stored
    obtain rfl := stands.unique again
    obtain ⟨attempt, _, rfl⟩ := List.mem_map.mp member
    refine ⟨_, formed.congr fun name read => ?_, .inl shown⟩
    exact Function.update_of_ne (temporaryName_hidden pid _ attempt name read) _ _

/-- After the rename a store has the new record. -/
theorem Stored.published {records : Records} {start place : Place} {key : StoredKey}
    (stored : Stored records start) (valid : validateRecord key = .ok ())
    (published : Published start (pathFor key.summary.id) (recordFile key) place) :
    Stored (Function.update records key.summary.id (some key)) place := by
  obtain ⟨view, formed, stands⟩ := stored
  obtain ⟨other, again, shown⟩ := published
  obtain rfl := stands.unique again
  refine ⟨_, formed.update key.summary.id (some key) ?_, .inl shown⟩
  rintro _ ⟨⟩
  exact ⟨rfl, valid⟩

/-- A save that succeeds has stored its record. -/
theorem Stored.saved {records : Records} {start : Place} {key : StoredKey} (stored : Stored records start)
    (valid : validateRecord key = .ok ()) {enumerate : List Name → List Name} {faults : Faults} {pid : UInt32}
    (saves : (executeFaulty enumerate faults (KeyStore.save pid key) start).1 = .ok ()) :
    Stored (Function.update records key.summary.id (some key))
      (executeFaulty enumerate faults (KeyStore.save pid key) start).2 := by
  obtain ⟨_, ends⟩ := KeyStore.meets_save pid key start start rfl
  have published : Rewritten start _ _ _ faults (Except.ok () : Except StoreError Unit) _ := saves ▸ ends
  exact stored.published valid published

/-- After the unlink a store lacks the record. -/
theorem Stored.removed {records : Records} {start place : Place} {id : KeyId} (stored : Stored records start)
    (removed : Removed start id place) : Stored (Function.update records id none) place := by
  obtain ⟨view, formed, stands⟩ := stored
  obtain ⟨other, again, shown⟩ := removed
  obtain rfl := stands.unique again
  exact ⟨_, formed.update id none nofun, .inl shown⟩

end Keyvisor.KeyStore

namespace Keyvisor.History

open Foundation Foundation.Text Foundation.Directory

section Appending

variable {enumerate : List Name → List Name} {faults : Faults} {crash : Place → Prop} {start : Place}

/-- The routine changed nothing, and what it returned is what it returns when
nothing fails. -/
def Faithful {α : Type} (enumerate : List Name → List Name) (start : Place) (task : Task HistoryError α)
    (outcome : Except HistoryError α) (place : Place) : Prop :=
  place = start ∧ ∀ value, outcome = .ok value → (execute enumerate task start).1 = .ok value

/-- A listing changes nothing and returns only what it returns when nothing fails. -/
theorem meets_listFound (path : Name) (metadata : Except IoError (FileKind × Nat)) (stopped : crash start) :
    Program.Meets (attempt enumerate faults) (fun place => place = start) (listFound path metadata).run
      crash (Faithful enumerate start (listFound path metadata)) := by
  have settled (result : Except HistoryError (List HistoryEntry)) (task : Task HistoryError (List HistoryEntry))
      (ends : task.run = .done result) : Program.Meets (attempt enumerate faults)
        (fun place => place = start) task.run crash (Faithful enumerate start task) := by
    rw [ends]
    apply Program.meets_done
    rintro _ rfl
    refine ⟨stopped, rfl, fun value same => ?_⟩
    rw [execute, Program.execute, ends, Program.run, same]
  cases metadata with
  | error error =>
    simp only [listFound]
    split
    · exact settled _ _ rfl
    · exact settled _ _ rfl
  | ok metadata =>
    simp only [listFound]
    split
    · exact settled _ _ rfl
    split
    · exact settled _ _ rfl
    have reading : Program.Meets (attempt enumerate faults) (fun place => place = start) (read path) crash
        (fun outcome place => place = start ∧ ∀ bytes, outcome = .ok bytes →
          (start.lookup path).bind contentsOf = .ok bytes) := by
      apply meets_attempt
      · rintro _ rfl
        exact stopped
      · rintro _ rfl _
        exact ⟨stopped, rfl, fun _ same => same⟩
      · rintro _ _ rfl _
        exact ⟨stopped, rfl, fun _ impossible => by cases impossible⟩
    refine Program.Meets.routine (Program.Meets.adapt HistoryError.io reading) (fun bytes => ?_) ?_
    · apply Program.meets_check
      rintro _ ⟨_ | inner, same, rfl, reads⟩
      · cases same
      · obtain rfl := Except.ok.inj same
        refine ⟨stopped, rfl, fun entries decodes => ?_⟩
        simp only [execute_bind, execute_reporting, execute_demand, run_read, reads _ rfl, Except.mapError,
          execute_lift, decodes]
    · rintro _ _ ⟨_, _, rfl, _⟩
      exact ⟨rfl, fun _ impossible => by cases impossible⟩

/-- Under failures a listing changes nothing, and a history that it returns is the
history that is there. A missing file is never mistaken for a failing one. -/
theorem meets_list (path : Name) (stopped : crash start) :
    Program.Meets (attempt enumerate faults) (fun place => place = start) (list path).run crash
      (Faithful enumerate start (list path)) := by
  have inspecting : Program.Meets (attempt enumerate faults) (fun place => place = start) (inspect path) crash
      (fun outcome place => place = start ∧
        (outcome = (start.lookup path).map (fun file => (file.kind, file.mode)) ∨
          ∃ fault : Fault, outcome = .error fault.error)) := by
    apply meets_attempt
    · rintro _ rfl
      exact stopped
    · rintro _ rfl _
      exact ⟨stopped, rfl, .inl rfl⟩
    · rintro _ fault rfl _
      exact ⟨stopped, rfl, .inr ⟨fault, rfl⟩⟩
  refine Program.Meets.routine (Program.Meets.observed (ε := HistoryError) inspecting) (fun metadata => ?_) ?_
  · apply Program.meets_of_each
    rintro _ ⟨_, ⟨⟩, rfl, rfl | ⟨fault, rfl⟩⟩
    · refine (meets_listFound path _ stopped).weaken (fun _ => id) (fun _ => id) ?_
      rintro outcome place ⟨same, returns⟩
      refine ⟨same, fun value ends => ?_⟩
      simp only [list, execute_bind, execute_observe, run_inspect]
      exact returns value ends
    · simp only [listFound, fault.present, ↓reduceIte]
      apply Program.meets_done
      rintro _ rfl
      exact ⟨stopped, rfl, fun _ impossible => by cases impossible⟩
  · rintro _ _ ⟨_, impossible, _⟩
    cases impossible

/-- The file of a history. -/
def historyFile (entries : List HistoryEntry) : File := ⟨.regular, 0o600, layout entries⟩

/-- The candidates are tried and one of them is opened, or nothing is published. -/
theorem meets_createTemporaryFile (pid : UInt32) (target : Name) (file : File) :
    Program.Meets (attempt enumerate faults) (Prepared start) (createTemporaryFile pid).run
      (Rewriting start (temporaryNames pid) target file) (fun outcome place => match outcome with
        | .ok temporary => Opened start (temporaryNames pid) 0o600 temporary place
        | .error _ => Unpublished start (temporaryNames pid) place) := by
  refine Program.Meets.routine (meets_opening 0o600) (fun temporary => ?_) (fun _ _ unpublished => unpublished)
  cases temporary with
  | none => exact Program.meets_done fun _ unpublished => ⟨.inl unpublished, unpublished⟩
  | some temporary => exact Program.meets_done fun _ opened => ⟨.inl opened.unpublished, opened⟩

/-- A save writes a history that the format admits, or nothing. -/
theorem meets_save (pid : UInt32) (entries : List HistoryEntry) :
    Program.Meets (attempt enumerate faults) (fun place => place = start) (save pid historyName entries).run
      (Rewriting start (temporaryNames pid) historyName (historyFile entries))
      (Rewritten start (temporaryNames pid) historyName (historyFile entries) faults) := by
  have apart (temporary : Name) (member : temporary ∈ temporaryNames pid) : temporary ≠ historyName := by
    obtain ⟨attempt, _, rfl⟩ := List.mem_map.mp member
    exact temporaryName_ne_historyName pid attempt
  have encoding : Program.Meets (attempt enumerate faults) (Prepared start)
      (liftM (encode entries) : Task HistoryError Bytes).run
      (Rewriting start (temporaryNames pid) historyName (historyFile entries))
      (fun outcome place => outcome = encode entries ∧ Prepared start place) :=
    Program.meets_check fun _ prepared => ⟨.inl (.inl (.inr prepared)), rfl, prepared⟩
  refine Program.Meets.routine ((meets_preparing _ _).adapt HistoryError.io) (fun _ => ?_) ?_
  · refine Program.Meets.routine (encoding.weaken ?_ (fun _ => id) (fun _ _ => id)) (fun bytes => ?_) ?_
    · rintro place ⟨_ | _, same, kept, prepared⟩
      · cases same
      · exact prepared rfl
    · apply Program.meets_of_each
      rintro _ ⟨encodes, prepared⟩
      obtain ⟨_, rfl⟩ := (encode_eq_ok _ _).mp encodes.symm
      refine Program.Meets.routine (((meets_createTemporaryFile pid _ _).adapt HistoryError.io).weaken
        ?_ (fun _ => id) (fun _ _ => id)) (fun temporary => ?_) ?_
      · rintro _ rfl
        exact prepared
      · apply Program.meets_of_each
        rintro place ⟨_ | _, ⟨⟩, opened⟩
        exact meets_publishing HistoryError.io (apart temporary opened.1) opened
      · rintro _ place ⟨_ | _, same, unpublished⟩
        · exact .inl unpublished
        · cases same
    · rintro _ place ⟨_, prepared⟩
      exact .inl (.inl (.inr prepared))
  · rintro _ place ⟨_, _, kept, _⟩
    exact .inl (.inl kept)

/-- What a later listing of the history returns. -/
def readable (enumerate : List Name → List Name) (place : Place) : Except HistoryError (List HistoryEntry) :=
  (execute enumerate (list historyName) place).1

/-- Before the rename the readable history is what it was. -/
theorem readable_of_unpublished {pid : UInt32} {place : Place}
    (unpublished : Unpublished start (temporaryNames pid) place) :
    readable enumerate place = readable enumerate start := by
  unfold readable
  rcases unpublished with (rfl | ⟨view, stands, shown⟩) | ⟨view, stands, temporary, member, _, added, shown⟩
  · rfl
  · rw [execute_list_stands enumerate historyName stands, execute_list_stands enumerate historyName (.inl shown)]
  · obtain ⟨attempt, _, rfl⟩ := List.mem_map.mp member
    rw [execute_list_stands enumerate historyName stands, execute_list_stands enumerate historyName (.inl shown),
      Function.update_of_ne (temporaryName_ne_historyName pid attempt).symm]

/-- After the rename the readable history is the one that was written. -/
theorem readable_of_published {entries : List HistoryEntry} {place : Place} (admissible : Admissible entries)
    (published : Published start historyName (historyFile entries) place) :
    readable enumerate place = .ok entries := by
  obtain ⟨view, _, shown⟩ := published
  have written : Keeps (Function.update view historyName (some (historyFile entries))) entries :=
    keeps_of_written admissible (Function.update_self _ _ _)
  rw [readable, execute_list enumerate (.inl shown) written]

/-- A readable history is admissible. -/
theorem admissible_of_readable {entries : List HistoryEntry}
    (reads : readable enumerate start = .ok entries) : Admissible entries := by
  have admissible {view : Name → Option File} (stands : Stands start view) : Admissible entries := by
    rw [readable, execute_list_stands enumerate historyName stands] at reads
    exact admissible_of_keeps ((keeps_iff view entries).mpr reads)
  cases start with
  | absent => exact admissible (.inr ⟨rfl, rfl⟩)
  | occupied kind => cases reads
  | directory mode files => exact admissible (.inl ⟨mode, files, rfl, fun _ => rfl⟩)

/-- The place shows the readable history of the start with the entry appended. -/
def Appended (enumerate : List Name → List Name) (start : Place) (entry : HistoryEntry) (place : Place) : Prop :=
  ∃ entries, readable enumerate start = .ok entries ∧
    readable enumerate place = .ok ((entries ++ [entry]).rtake maxEntries)

/-- An append leaves the readable history as it was or with the entry appended,
whatever fails and wherever it stops, and a success has appended it. -/
theorem meets_append (pid : UInt32) (entry : HistoryEntry) :
    Program.Meets (attempt enumerate faults) (fun place => place = start) (append pid historyName entry).run
      (fun place => readable enumerate place = readable enumerate start ∨ Appended enumerate start entry place)
      (fun outcome place => outcome = .ok () → Appended enumerate start entry place) := by
  cases valid : validateEntry entry with
  | error error =>
    have refused : (append pid historyName entry).run = .done (.error error) := by
      rw [append, valid]
      rfl
    rw [refused]
    apply Program.meets_done
    rintro _ rfl
    exact ⟨.inl rfl, fun impossible => by cases impossible⟩
  | ok _ =>
    have accepted : append pid historyName entry = (list historyName >>= fun entries =>
        save pid historyName (trimmed (entries ++ [entry]))) := by
      rw [append, valid]
      rfl
    rw [accepted]
    refine Program.Meets.routine (meets_list historyName (.inl rfl)) (fun entries => ?_) ?_
    · apply Program.meets_of_each
      rintro origin ⟨rfl, returns⟩
      have reads : readable enumerate origin = .ok entries := returns entries rfl
      have admissible := (admissible_of_readable reads).append valid
      have appended (place : Place) (published : Published origin historyName
          (historyFile ((entries ++ [entry]).rtake maxEntries)) place) : Appended enumerate origin entry place :=
        ⟨entries, reads, readable_of_published admissible published⟩
      rw [trimmed_eq_rtake]
      refine (meets_save pid _).weaken (fun _ => id) ?_ ?_
      · rintro place (unpublished | published)
        · exact .inl (readable_of_unpublished unpublished)
        · exact .inr (appended place published)
      · rintro _ place published rfl
        exact appended place published
    · exact fun _ _ _ impossible => by cases impossible

end Appending

end Keyvisor.History

namespace Keyvisor.Durability

open Foundation Foundation.Directory RecordCodec KeyStore

namespace Sample

def key : StoredKey := ⟨⟨⟨"k"⟩, "work", .ecdsaNistP256, .noPin, [7]⟩, ⟨[5], [6], [4], .noPin⟩⟩

def entry : History.HistoryEntry := ⟨5, ⟨"k"⟩, "work", .noPin, .succeeded⟩

/-- Another key. -/
def other : StoredKey := ⟨⟨⟨"m"⟩, "home", .ecdsaNistP384, .tpmPin, [8]⟩, ⟨[5], [6], [4], .tpmPin⟩⟩

/-- A store that holds the other key. -/
def store : Place := (executeFaulty id (fun _ => none) (KeyStore.save 7 other) .absent).2

def records : Records := Function.update (fun _ => none) ⟨"m"⟩ (some other)

/-- The records are stored in that directory. -/
theorem stored : Stored records store :=
  stored_absent.saved (show validateRecord other = .ok () from rfl)
    (show (executeFaulty id (fun _ => none) (KeyStore.save 7 other) .absent).1 = .ok () from rfl)

/-- Only the sync of the directory fails. -/
def unsynced : Faults := fun operation =>
  if operation = .syncDirectory then some ⟨⟨.other, "Input/output error (os error 5)"⟩, 0, by decide⟩ else none

/-- Every write fails after three bytes. -/
def torn : Faults
  | .writeAll _ _ => some ⟨⟨.other, "No space left on device (os error 28)"⟩, 3, by decide⟩
  | _ => none

end Sample

/-- Persistence is atomic. Take any well-formed store, any valid record and any
pattern of failing operations, and stop a save anywhere: the directory is a
well-formed store again, in which later calls see exactly the old records or exactly
the old records with the saved one, and a save that succeeds has stored it. Take any
directory and any entry, and stop an append to the history anywhere: the history
reads as before or as before with the entry appended, trimmed to the newest entries,
and an append that succeeds has appended it.

Proof: both routines rewrite one file through a temporary name that was free. Until
the rename only that name differs, and no reader reads it; from the rename on the
target is complete. -/
theorem persistence_is_atomic (enumerate : List Name → List Name) (faults : Faults) (pid : UInt32)
    (start : Place) :
    (∀ records key, Stored records start → validateRecord key = .ok () →
      (∀ place ∈ stops enumerate faults (KeyStore.save pid key) start,
        (Stored records place ∧ Sees records place) ∨
          Stored (Function.update records key.summary.id (some key)) place ∧
            Sees (Function.update records key.summary.id (some key)) place) ∧
      ((executeFaulty enumerate faults (KeyStore.save pid key) start).1 = .ok () →
        Sees (Function.update records key.summary.id (some key))
          (executeFaulty enumerate faults (KeyStore.save pid key) start).2)) ∧
    ∀ entry,
      (∀ place ∈ stops enumerate faults (History.append pid History.historyName entry) start,
        History.readable enumerate place = History.readable enumerate start ∨
          History.Appended enumerate start entry place) ∧
      ((executeFaulty enumerate faults (History.append pid History.historyName entry) start).1 = .ok () →
        History.Appended enumerate start entry
          (executeFaulty enumerate faults (History.append pid History.historyName entry) start).2) := by
  constructor
  · intro records key stored valid
    obtain ⟨passes, _⟩ := KeyStore.meets_save pid key start start rfl
    constructor
    · intro place passed
      rcases passes place passed with unpublished | published
      · exact .inl ⟨stored.unpublished unpublished, (stored.unpublished unpublished).sees⟩
      · exact .inr ⟨stored.published valid published, (stored.published valid published).sees⟩
    · intro succeeds
      exact (stored.saved valid succeeds).sees
  · intro entry
    obtain ⟨passes, ends⟩ := History.meets_append pid entry start rfl
    exact ⟨passes, ends⟩

/-- A torn write into a store with another record stops in that store, or in one with
both. -/
theorem torn_save_is_invisible :
    validateRecord Sample.key = .ok () ∧ Stored Sample.records Sample.store ∧
      Sample.records ⟨"m"⟩ = some Sample.other ∧
      (∀ place ∈ stops id Sample.torn (KeyStore.save 7 Sample.key) Sample.store,
        (Stored Sample.records place ∧ Sees Sample.records place) ∨
          Stored (Function.update Sample.records ⟨"k"⟩ (some Sample.key)) place ∧
            Sees (Function.update Sample.records ⟨"k"⟩ (some Sample.key)) place) := by
  have valid : validateRecord Sample.key = .ok () := rfl
  exact ⟨valid, Sample.stored, rfl,
    ((persistence_is_atomic id Sample.torn 7 Sample.store).1 _ Sample.key Sample.stored valid).1⟩

/-- A reported failure changes nothing that is read, or is that of the directory
sync. For every directory, every argument and every pattern of failures: a save or a
deletion that returns an error leaves every answer of list and load as it was, unless
opening or syncing the directory failed after the rename or the removal; then the
directory is exactly the one that the completed call leaves, with the record's file
in place or without it. -/
theorem reported_failures_change_nothing_before_the_sync (enumerate : List Name → List Name) (faults : Faults)
    (start : Place) :
    (∀ pid key error, (executeFaulty enumerate faults (KeyStore.save pid key) start).1 = .error error →
      SameAnswers start (executeFaulty enumerate faults (KeyStore.save pid key) start).2 ∨
        Unsynced faults ∧ Published start (pathFor key.summary.id) (recordFile key)
          (executeFaulty enumerate faults (KeyStore.save pid key) start).2) ∧
    ∀ id error, (executeFaulty enumerate faults (delete id) start).1 = .error error →
      SameAnswers start (executeFaulty enumerate faults (delete id) start).2 ∨
        Unsynced faults ∧ Removed start id (executeFaulty enumerate faults (delete id) start).2 := by
  constructor
  · intro pid key error fails
    obtain ⟨_, ends⟩ := KeyStore.meets_save pid key start start rfl
    have rewritten : Rewritten start _ _ _ faults (Except.error error : Except StoreError Unit) _ := fails ▸ ends
    exact rewritten.imp_left sameAnswers_of_unpublished
  · intro id error fails
    obtain ⟨_, ends⟩ := meets_delete id start start rfl
    have deleted : Deleted faults start id (Except.error error) _ := fails ▸ ends
    exact deleted

/-- With the directory synced, the torn save reports its failure and changes no answer of
a store with another record. -/
theorem torn_save_changes_nothing :
    (executeFaulty id Sample.torn (KeyStore.save 7 Sample.key) Sample.store).1 =
        .error (.io ⟨.other, "No space left on device (os error 28)"⟩) ∧
      SameAnswers Sample.store (executeFaulty id Sample.torn (KeyStore.save 7 Sample.key) Sample.store).2 ∧
      (execute id (load ⟨"m"⟩) Sample.store).1 = .ok Sample.other := by
  have fails : (executeFaulty id Sample.torn (KeyStore.save 7 Sample.key) Sample.store).1 =
      .error (.io ⟨.other, "No space left on device (os error 28)"⟩) := rfl
  have synced : ¬ Unsynced Sample.torn := by rintro (opened | synced) <;> contradiction
  refine ⟨fails, ?_, rfl⟩
  rcases (reported_failures_change_nothing_before_the_sync id Sample.torn Sample.store).1 7 Sample.key _ fails with
    same | ⟨unsynced, _⟩
  · exact same
  · exact absurd unsynced synced

/-- A save whose directory sync fails reports the failure, and its record can be
loaded although it could not before. -/
theorem unsynced_save_is_visible :
    (executeFaulty id Sample.unsynced (KeyStore.save 7 Sample.key) (.directory 0o700 ∅)).1 =
        .error (.io ⟨.other, "Input/output error (os error 5)"⟩) ∧
      (execute id (load ⟨"k"⟩) (.directory 0o700 ∅)).1 = .error (.io .noSuchFile) ∧
      (execute id (load ⟨"k"⟩)
        (executeFaulty id Sample.unsynced (KeyStore.save 7 Sample.key) (.directory 0o700 ∅)).2).1 =
          .ok Sample.key ∧
      ¬ SameAnswers (.directory 0o700 ∅)
        (executeFaulty id Sample.unsynced (KeyStore.save 7 Sample.key) (.directory 0o700 ∅)).2 := by
  refine ⟨rfl, rfl, rfl, fun same => ?_⟩
  have loads := same.loads ⟨id, fun _ => List.Perm.refl _⟩ ⟨"k"⟩
  have found : (execute id (load ⟨"k"⟩)
      (executeFaulty id Sample.unsynced (KeyStore.save 7 Sample.key) (.directory 0o700 ∅)).2).1 =
        .ok Sample.key := rfl
  rw [found] at loads
  cases loads

end Keyvisor.Durability
