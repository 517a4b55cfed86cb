import Keyvisor.RecordCodec
import Mathlib.Data.List.Sort

/-!
# The key store

Executable translation of `KeyStore` in `keyvisor-agent/src/lib.rs` as routines
over one directory: the store's own directory, whose entries are named relative
to it. The process identifier that enters temporary names is an argument,
because different commands run in different processes.

The refinement half states what the store is for, a finite map from identifiers
to records, and shows that every sequence of calls answers as that map does. The
representation is one regular file for each record, named by the hexadecimal
spelling of its identifier; temporary names start with a dot and therefore never
collide with a record name.
-/

namespace Keyvisor.KeyStore

open Foundation Foundation.Text Foundation.Directory RecordCodec

/-- Hexadecimal digits of the identifier's bytes. -/
def fileStem (id : KeyId) : Bytes := hex (utf8 id.asStr)

/-- The entry name behind `path_for`: the stem with the extension `key`. -/
def pathFor (id : KeyId) : Name := fileStem id ++ utf8 ".key"

/-- `Path::extension` on a file name: what follows the last dot, unless nothing
precedes that dot or the name is the parent directory. -/
def extension (name : Name) : Option Bytes :=
  if name = utf8 ".." then none
  else
    let after := (name.reverse.takeWhile (· != 46)).reverse
    let before := name.take (name.length - after.length - 1)
    if after.length = name.length then none
    else if before.isEmpty then none
    else some after

/-- The temporary name of one attempt. -/
def temporaryName (pid : UInt32) (id : KeyId) (attempt : Nat) : Name :=
  utf8 "." ++ fileStem id ++ utf8 "." ++ decimal pid.toNat ++ utf8 "." ++ decimal attempt ++ utf8 ".tmp"

/-- `ensure_private_directory` of the store. -/
def ensurePrivateDirectory : Task IoError Unit :=
  ensureDirectory 0o700 "key store path is not a directory"

/-- The temporary file found by the attempt loop, or its exhaustion. -/
def allocated (temporary : Option Name) : Except StoreError Name :=
  match temporary with
  | some name => .ok name
  | none => .error (.io ⟨.alreadyExists, "could not allocate a temporary key record"⟩)

/-- `KeyStore::save`. -/
def save (pid : UInt32) (key : StoredKey) : Task StoreError Unit := do
  validateRecord key
  let bytes ← encode key
  reporting .io ensurePrivateDirectory
  let destination := pathFor key.summary.id
  let candidates := (List.range 100).map (temporaryName pid key.summary.id)
  let temporary ← reporting .io (createFirst 0o600 candidates)
  let temporaryPath ← allocated temporary
  reporting .io (publish temporaryPath destination bytes)

/-- `KeyStore::load`. -/
def load (id : KeyId) : Task StoreError StoredKey := do
  let bytes ← reporting .io (demand (read (pathFor id)))
  decode bytes

/-- One directory entry of the listing loop. -/
def listEntry (keys : List StoredKey) (entry : Name) : Task StoreError (List StoredKey) :=
  if extension entry ≠ some (utf8 "key") then pure keys
  else do
    let kind ← reporting .io (demand (entryKind entry))
    if kind ≠ .regular then throw .invalidRecord
    else do
      let bytes ← reporting .io (demand (read entry))
      let key ← decode bytes
      return keys ++ [key]

/-- Byte order of identifiers, as `str::cmp` compares them. -/
def idLe (left right : StoredKey) : Bool :=
  !decide (utf8 right.summary.id.asStr < utf8 left.summary.id.asStr)

/-- The entries of the listing, or none for a missing store. -/
def listEntries (entries : Except IoError (List Name)) : Task StoreError (List StoredKey) :=
  match entries with
  | .ok names => do
    let keys ← names.foldlM listEntry []
    return keys.mergeSort idLe
  | .error error => if error.kind = .notFound then pure [] else throw (.io error)

/-- `KeyStore::list`. -/
def list : Task StoreError (List StoredKey) := do
  let entries ← observe readDirectory
  listEntries entries

/-- `sync_directory`: open the directory, then sync it. -/
def syncStore : Task IoError Unit := do
  demand openDirectory
  demand syncDirectory

/-- `KeyStore::delete`. -/
def delete (id : KeyId) : Task StoreError Unit :=
  if (utf8 id.asStr).isEmpty || maxTextLen < (utf8 id.asStr).length then throw .invalidRecord
  else do
    let path := pathFor id
    let metadata ← reporting .io (demand (inspect path))
    if metadata.1 ≠ .regular then throw .invalidRecord
    else do
      reporting .io (demand (removeFile path))
      reporting .io syncStore

/-! ## Names -/

/-- Different identifiers have different record names. -/
theorem pathFor_injective {left right : KeyId} (same : pathFor left = pathFor right) : left = right := by
  have stems : fileStem left = fileStem right := List.append_cancel_right same
  cases left
  cases right
  exact congrArg KeyId.mk (utf8_injective (hex_injective stems))

/-- A record name of a non-empty identifier has the extension of records. The
stem holds no dot, so the last dot is the one before the extension. -/
theorem extension_pathFor (id : KeyId) (nonempty : utf8 id.asStr ≠ []) :
    extension (pathFor id) = some (utf8 "key") := by
  have stemLength : 0 < (fileStem id).length := by
    rw [fileStem, length_hex]
    have positive := List.length_pos_iff.mpr nonempty
    omega
  have ending : utf8 ".key" = [46, 107, 101, 121] := by decide
  have notParent : pathFor id ≠ utf8 ".." := by
    intro same
    have lengths := congrArg List.length same
    have dots : (utf8 "..").length = 2 := by decide
    rw [pathFor, List.length_append, ending, dots] at lengths
    simp only [List.length_cons, List.length_nil] at lengths
    omega
  have after : (pathFor id).reverse.takeWhile (· != 46) = [121, 101, 107] := by
    rw [pathFor, ending, List.reverse_append]
    rfl
  simp only [extension, notParent, ↓reduceIte, after]
  rw [pathFor, ending]
  simp only [List.length_append, List.length_cons, List.length_nil, List.reverse_cons, List.reverse_nil,
    List.nil_append, List.cons_append, Nat.zero_add, Nat.reduceAdd]
  have longer : ¬ 3 = (fileStem id).length + 4 := by omega
  have kept : (fileStem id).length + 4 - 3 - 1 = (fileStem id).length := by omega
  rw [if_neg longer, kept, List.take_left]
  have notEmpty : (fileStem id).isEmpty = false := by
    rw [List.isEmpty_eq_false_iff]
    exact List.length_pos_iff.mp stemLength
  rw [notEmpty]
  rfl

/-- Temporary names start with a dot, which no record name of a non-empty
identifier does. -/
theorem temporaryName_ne_pathFor (pid : UInt32) (id other : KeyId) (attempt : Nat)
    (nonempty : utf8 other.asStr ≠ []) : temporaryName pid id attempt ≠ pathFor other := by
  obtain ⟨byte, rest, spelled⟩ := List.exists_cons_of_ne_nil nonempty
  intro same
  have heads := congrArg List.head? same
  have dot : (temporaryName pid id attempt).head? = some 46 := by
    have leading : utf8 "." = [46] := by decide
    simp only [temporaryName, leading, List.cons_append, List.head?_cons]
  have digit : ∃ written ∈ hexDigits, (pathFor other).head? = some written := by
    refine ⟨hexDigits.getD (byte >>> 4).toNat 0, ?_, ?_⟩
    · have spelling : hexDigits.getD (byte >>> 4).toNat 0 ∈ hex [byte] := by simp [hex, hexByte]
      exact mem_hexDigits_of_mem_hex spelling
    · simp [pathFor, fileStem, spelled, hexByte]
  obtain ⟨written, member, first⟩ := digit
  rw [dot, first] at heads
  exact (hexDigit_plain member).2.2.2.2.2.2.1 (Option.some.inj heads).symm

/-! ## Representation -/

/-- The abstract store: a partial map from identifiers to records. -/
abbrev Records := KeyId → Option StoredKey

/-- The file that holds a record. -/
def recordFile (key : StoredKey) : File := ⟨.regular, 0o600, layout (rawOf key)⟩

/-- Every record is valid and stored under its own identifier, and the view has
exactly one file for each record, under the record's name. -/
structure Holds (records : Records) (view : Name → Option File) : Prop where
  keyed : ∀ id key, records id = some key → key.summary.id = id ∧ validateRecord key = .ok ()
  filed : ∀ name file, view name = some file ↔
    ∃ key, records key.summary.id = some key ∧ name = pathFor key.summary.id ∧ file = recordFile key

/-- The store's place represents the map; a missing directory is an empty map. -/
def Represents (records : Records) (place : Place) : Prop :=
  ∃ view, Holds records view ∧ Stands place view

/-- A valid record has a non-empty identifier within the text limit. -/
theorem valid_id (key : StoredKey) (valid : validateRecord key = .ok ()) :
    utf8 key.summary.id.asStr ≠ [] ∧ (utf8 key.summary.id.asStr).length ≤ maxTextLen := by
  refine ⟨?_, (bounded_of_valid key valid).1.id⟩
  intro empty
  simp [validateRecord, empty] at valid

/-- The file under an identifier's name is the file of its record. -/
theorem view_pathFor {records : Records} {view : Name → Option File} (held : Holds records view)
    (id : KeyId) : view (pathFor id) = (records id).map recordFile := by
  cases stored : records id with
  | some key =>
    obtain ⟨rfl, _⟩ := held.keyed id key stored
    exact (held.filed _ _).mpr ⟨key, stored, rfl, rfl⟩
  | none =>
    cases shown : view (pathFor id) with
    | none => rfl
    | some file =>
      obtain ⟨key, filed, same, _⟩ := (held.filed _ _).mp shown
      rw [← pathFor_injective same, stored] at filed
      cases filed

/-- No temporary name is a record name. -/
theorem view_temporaryName {records : Records} {view : Name → Option File} (held : Holds records view)
    (pid : UInt32) (id : KeyId) (attempt : Nat) : view (temporaryName pid id attempt) = none := by
  cases shown : view (temporaryName pid id attempt) with
  | none => rfl
  | some file =>
    obtain ⟨key, filed, same, _⟩ := (held.filed _ _).mp shown
    have nonempty := (valid_id key (held.keyed _ _ filed).2).1
    exact absurd same (temporaryName_ne_pathFor pid id _ attempt nonempty)

/-- Changing what one identifier holds changes the file under its name and keeps
every other one. -/
theorem Holds.update {records : Records} {view : Name → Option File} (held : Holds records view)
    (id : KeyId) (value : Option StoredKey)
    (proper : ∀ key, value = some key → key.summary.id = id ∧ validateRecord key = .ok ()) :
    Holds (Function.update records id value)
      (Function.update view (pathFor id) (value.map recordFile)) := by
  constructor
  · intro other key stored
    by_cases same : other = id
    · subst same
      rw [Function.update_self] at stored
      exact proper key stored
    · rw [Function.update_of_ne same] at stored
      exact held.keyed other key stored
  · intro name file
    by_cases same : name = pathFor id
    · subst same
      rw [Function.update_self, Option.map_eq_some_iff]
      constructor
      · rintro ⟨key, rfl, rfl⟩
        obtain ⟨rfl, _⟩ := proper key rfl
        exact ⟨key, Function.update_self _ _ _, rfl, rfl⟩
      · rintro ⟨key, stored, sameName, rfl⟩
        rw [← pathFor_injective sameName, Function.update_self] at stored
        exact ⟨key, stored, rfl⟩
    · rw [Function.update_of_ne same, held.filed]
      have kept (key : StoredKey) (sameName : name = pathFor key.summary.id) :
          Function.update records id value key.summary.id = records key.summary.id :=
        Function.update_of_ne (fun equal => same (sameName.trans (congrArg pathFor equal))) _ _
      constructor
      · rintro ⟨key, stored, sameName, rfl⟩
        exact ⟨key, (kept key sameName).trans stored, sameName, rfl⟩
      · rintro ⟨key, stored, sameName, rfl⟩
        exact ⟨key, (kept key sameName).symm.trans stored, sameName, rfl⟩

/-! ## The operations -/

variable (enumerate : List Name → List Name)

/-- A valid record is stored under its own identifier. The directory is made
when it is missing, the first temporary name is free because no temporary name
is a record name, and publishing moves it over the record's name. -/
theorem execute_save (pid : UInt32) (key : StoredKey) (valid : validateRecord key = .ok ())
    {records : Records} {place : Place} (represented : Represents records place) :
    ∃ reached, execute enumerate (save pid key) place = (.ok (), reached) ∧
      Represents (Function.update records key.summary.id (some key)) reached := by
  obtain ⟨view, held, stands⟩ := represented
  have encodes : encode key = .ok (layout (rawOf key)) :=
    (encode_eq_ok _ _).mpr ⟨(bounded_of_valid key valid).1, rfl⟩
  obtain ⟨prepared, ensures, preparedShows⟩ :=
    execute_ensureDirectory enumerate 0o700 "key store path is not a directory" place view stands
  have free : ∃ candidate ∈ (List.range 100).map (temporaryName pid key.summary.id),
      view candidate = none :=
    ⟨_, List.mem_map.mpr ⟨0, by decide, rfl⟩, view_temporaryName held pid _ 0⟩
  obtain ⟨temporary, candidate, unused, created, creates, createdShows⟩ :=
    execute_createFirst enumerate 0o600 _ prepared view preparedShows free
  obtain ⟨attempt, _, rfl⟩ := List.mem_map.mp candidate
  have apart := temporaryName_ne_pathFor pid key.summary.id key.summary.id attempt (valid_id key valid).1
  have replaceable (file : File) (shown : Function.update view (temporaryName pid key.summary.id attempt)
      (some ⟨.regular, 0o600, []⟩) (pathFor key.summary.id) = some file) : file.kind ≠ .directory := by
    rw [Function.update_of_ne apart.symm] at shown
    obtain ⟨_, _, _, rfl⟩ := (held.filed _ _).mp shown
    simp [recordFile]
  obtain ⟨published, publishes, publishedShows, _⟩ := execute_publish enumerate
    (temporaryName pid key.summary.id attempt) (pathFor key.summary.id) (layout (rawOf key)) 0o600
    apart createdShows (Function.update_self _ _ _) replaceable
  refine ⟨published, ?_, _, held.update key.summary.id (some key) ?_, .inl ?_⟩
  · simp only [save, execute_bind, execute_lift, valid, encodes, execute_reporting,
      ensurePrivateDirectory, ensures, Except.mapError, creates, allocated, publishes]
  · rintro _ ⟨⟩
    exact ⟨rfl, valid⟩
  · rw [Function.update_idem, ← unused, Function.update_eq_self] at publishedShows
    exact publishedShows

/-- An invalid record is refused before the directory is touched. -/
theorem execute_save_invalid (pid : UInt32) (key : StoredKey) (error : StoreError)
    (invalid : validateRecord key = .error error) (place : Place) :
    execute enumerate (save pid key) place = (.error error, place) := by
  simp only [save, execute_bind, execute_lift, invalid]

/-- Deleting a stored identifier removes it and nothing else. -/
theorem execute_delete (id : KeyId) {records : Records} {place : Place} {key : StoredKey}
    (represented : Represents records place) (stored : records id = some key) :
    ∃ reached, execute enumerate (delete id) place = (.ok (), reached) ∧
      Represents (Function.update records id none) reached := by
  obtain ⟨view, held, stands⟩ := represented
  obtain ⟨sameId, valid⟩ := held.keyed id key stored
  obtain ⟨nonempty, bounded⟩ := valid_id key valid
  rw [sameId] at nonempty bounded
  have accepted : ((utf8 id.asStr).isEmpty || decide (maxTextLen < (utf8 id.asStr).length)) = false := by
    rw [Bool.or_eq_false_iff, List.isEmpty_eq_false_iff, decide_eq_false_iff_not]
    exact ⟨nonempty, Nat.not_lt.mpr bounded⟩
  have filed : view (pathFor id) = some (recordFile key) := by rw [view_pathFor held, stored]; rfl
  rcases stands with ⟨mode, files, rfl, shown⟩ | ⟨rfl, rfl⟩
  · have found : files.lookup (pathFor id) = some (recordFile key) := (shown _).trans filed
    have inspects : (Place.directory mode files).lookup (pathFor id) = .ok (recordFile key) := by
      simp [Place.lookup, found]
    have removes : files.remove (pathFor id) = (.ok (), files.erase (pathFor id)) := by
      simp [Files.remove, found, recordFile]
    refine ⟨.directory mode (files.erase (pathFor id)), ?_, _, held.update id none (by simp), .inl ?_⟩
    · have regular : ¬ (recordFile key).kind ≠ .regular := not_not.mpr rfl
      simp only [delete, accepted, Bool.false_eq_true, ↓reduceIte, execute_bind, execute_reporting,
        execute_demand, run_inspect, inspects, Except.map, Except.mapError, regular, run_removeFile,
        removes, syncStore, run_openDirectory, run_syncDirectory]
    · exact ⟨mode, files.erase (pathFor id), rfl, lookup_erase (pathFor id) shown⟩
  · cases filed

/-- Deleting an identifier that is not stored is refused. -/
theorem execute_delete_missing (id : KeyId) {records : Records} {place : Place}
    (represented : Represents records place) (missing : records id = none) :
    ∃ error, execute enumerate (delete id) place = (.error error, place) := by
  obtain ⟨view, held, stands⟩ := represented
  have found := lookup_of_stands stands (pathFor id)
  rw [view_pathFor held id, missing, Option.map_none, Option.elim_none] at found
  unfold delete
  split
  · exact ⟨.invalidRecord, rfl⟩
  · refine ⟨.io .noSuchFile, ?_⟩
    simp only [execute_bind, execute_reporting, execute_demand, run_inspect, found, Except.map,
      Except.mapError]

/-! ## Listing any directory -/

/-- The names that a listing reads. -/
def isRecordName (name : Name) : Bool := decide (extension name = some (utf8 "key"))

/-- What a listing makes of the file under one name. -/
def readRecord (file : File) : Except StoreError StoredKey :=
  if file.kind ≠ .regular then .error .invalidRecord else decode file.contents

/-- What a listing makes of one name. -/
def readEntry (view : Name → Option File) (name : Name) : Except StoreError StoredKey :=
  (view name).elim (.error (.io .noSuchFile)) readRecord

/-- A record is read exactly from a regular file with the bytes of a valid record. -/
theorem readRecord_eq_ok (file : File) (key : StoredKey) :
    readRecord file = .ok key ↔
      file.kind = .regular ∧ validateRecord key = .ok () ∧ file.contents = layout (rawOf key) := by
  unfold readRecord
  by_cases regular : file.kind = .regular
  · simp only [regular, ne_eq, not_true_eq_false, ↓reduceIte, true_and, decode_layout]
  · simp only [regular, ne_eq, not_false_eq_true, ↓reduceIte, reduceCtorEq, false_and]

/-- A name is read exactly when it has such a file. -/
theorem readEntry_eq_ok (view : Name → Option File) (name : Name) (key : StoredKey) :
    readEntry view name = .ok key ↔ ∃ file, view name = some file ∧ readRecord file = .ok key := by
  unfold readEntry
  cases view name with
  | none => simp
  | some file => simp

/-- Reading one name after another succeeds exactly when each of them is read. -/
theorem readEntries_eq_ok (view : Name → Option File) (names : List Name) (keys : List StoredKey) :
    names.mapM (readEntry view) = .ok keys ↔
      List.Forall₂ (fun name key => readEntry view name = .ok key) names keys := by
  induction names generalizing keys with
  | nil => simp [pure, Except.pure, eq_comm]
  | cons name rest inductionHypothesis =>
    simp only [List.mapM_cons, bind_eq_ok, inductionHypothesis, pure, Except.pure, Except.ok.injEq,
      List.forall₂_cons_left_iff]
    constructor
    · rintro ⟨key, reads, keys, others, rfl⟩
      exact ⟨key, keys, reads, others, rfl⟩
    · rintro ⟨key, keys, reads, others, rfl⟩
      exact ⟨key, reads, keys, others, rfl⟩

/-- One entry of the loop: other names are passed over. -/
theorem execute_listEntry {place : Place} {view : Name → Option File} (stands : Stands place view)
    (keys : List StoredKey) (name : Name) :
    execute enumerate (listEntry keys name) place =
      (if isRecordName name then (readEntry view name).map (fun key => keys ++ [key]) else .ok keys, place) := by
  have found := lookup_of_stands stands name
  by_cases named : extension name = some (utf8 "key")
  · have recorded : isRecordName name = true := decide_eq_true named
    simp only [listEntry, named, ne_eq, not_true_eq_false, ↓reduceIte, recorded, readEntry]
    cases present : view name with
    | none =>
      rw [present, Option.elim_none] at found
      simp only [execute_bind, execute_reporting, execute_demand, run_entryKind, found, Except.map,
        Except.mapError, Option.elim_none]
    | some file =>
      rw [present, Option.elim_some] at found
      by_cases regular : file.kind = .regular
      · have readable : contentsOf file = .ok file.contents := by simp [contentsOf, regular]
        simp only [execute_bind, execute_reporting, execute_demand, run_entryKind, found, Except.map,
          Except.mapError, regular, not_true_eq_false, ↓reduceIte, run_read, Except.bind, readable,
          execute_lift, Option.elim_some, readRecord, ne_eq]
        cases decode file.contents with
        | error error => rfl
        | ok key => rfl
      · simp only [execute_bind, execute_reporting, execute_demand, run_entryKind, found, Except.map,
          Except.mapError, regular, not_false_eq_true, ↓reduceIte, execute_throw, Option.elim_some,
          readRecord, ne_eq]
  · have other : isRecordName name = false := decide_eq_false named
    simp only [listEntry, named, ne_eq, not_false_eq_true, ↓reduceIte, execute_pure, other,
      Bool.false_eq_true]

/-- The loop reads the record names in listing order and stops at the first that
does not read. -/
theorem execute_listEntries {place : Place} {view : Name → Option File} (stands : Stands place view)
    (names : List Name) (keys : List StoredKey) :
    execute enumerate (names.foldlM listEntry keys) place =
      (((names.filter isRecordName).mapM (readEntry view)).map (fun found => keys ++ found), place) := by
  induction names generalizing keys with
  | nil =>
    show (Except.ok keys, place) = _
    simp [pure, Except.pure, Except.map]
  | cons name rest inductionHypothesis =>
    rw [List.foldlM_cons, execute_bind, execute_listEntry enumerate stands]
    by_cases named : isRecordName name = true
    · simp only [named, ↓reduceIte, List.filter_cons_of_pos, List.mapM_cons]
      cases readEntry view name with
      | error error => rfl
      | ok key =>
        simp only [Except.map, inductionHypothesis, bind, Except.bind]
        cases (rest.filter isRecordName).mapM (readEntry view) with
        | error error => rfl
        | ok found => simp [pure, Except.pure]
    · simp only [named, Bool.false_eq_true, ↓reduceIte, not_false_eq_true, List.filter_cons_of_neg,
        inductionHypothesis]

/-- The listing of a directory reads its record names, and sorts what it read. -/
theorem execute_list_directory (mode : Nat) (files : Files) :
    execute enumerate list (.directory mode files) =
      ((((enumerate files.keys).filter isRecordName).mapM (readEntry files.lookup)).map
        (fun found => found.mergeSort idLe), .directory mode files) := by
  have stands : Stands (.directory mode files) files.lookup := .inl ⟨mode, files, rfl, fun _ => rfl⟩
  simp only [list, execute_bind, execute_observe, run_readDirectory, Place.names, listEntries,
    execute_listEntries enumerate stands, List.nil_append]
  cases ((enumerate files.keys).filter isRecordName).mapM (readEntry files.lookup) with
  | error error => rfl
  | ok found => rfl

/-- When every name reads, so does the whole list. -/
theorem exists_readEntries {view : Name → Option File} {names : List Name}
    (readable : ∀ name ∈ names, ∃ key, readEntry view name = .ok key) :
    ∃ keys, names.mapM (readEntry view) = .ok keys := by
  induction names with
  | nil => exact ⟨[], rfl⟩
  | cons name rest inductionHypothesis =>
    obtain ⟨key, reads⟩ := readable name List.mem_cons_self
    obtain ⟨keys, others⟩ := inductionHypothesis fun name member => readable name (List.mem_cons_of_mem _ member)
    rw [readEntries_eq_ok] at others
    exact ⟨key :: keys, (readEntries_eq_ok _ _ _).mpr (.cons reads others)⟩

/-- The records that were read are those of the names. -/
theorem mem_of_readEntries {view : Name → Option File} {names : List Name} {keys : List StoredKey}
    (reads : names.mapM (readEntry view) = .ok keys) (key : StoredKey) :
    key ∈ keys ↔ ∃ name ∈ names, readEntry view name = .ok key := by
  rw [readEntries_eq_ok] at reads
  induction reads with
  | nil => simp
  | cons first others inductionHypothesis =>
    rw [List.mem_cons, inductionHypothesis, List.exists_mem_cons_iff, first, Except.ok.injEq, eq_comm]

/-- The contents of a well-formed store: valid records under their own identifiers,
one regular file for each of them, and no other entry that a listing would read.
Leftover temporary files may stand beside the records. -/
structure WellFormed (records : Records) (view : Name → Option File) : Prop where
  keyed : ∀ id key, records id = some key → key.summary.id = id ∧ validateRecord key = .ok ()
  stored : ∀ id key, records id = some key →
    ∃ mode, view (pathFor id) = some ⟨.regular, mode, layout (rawOf key)⟩
  unused : ∀ id, records id = none → view (pathFor id) = none
  named : ∀ name, isRecordName name → (view name).isSome → ∃ id, name = pathFor id

/-- A store without leftovers is well formed. -/
theorem Holds.wellFormed {records : Records} {view : Name → Option File} (held : Holds records view) :
    WellFormed records view where
  keyed := held.keyed
  stored id key stored := ⟨0o600, by rw [view_pathFor held, stored]; rfl⟩
  unused id missing := by rw [view_pathFor held, missing]; rfl
  named name _ present := by
    obtain ⟨file, shown⟩ := Option.isSome_iff_exists.mp present
    obtain ⟨key, _, named, _⟩ := (held.filed name file).mp shown
    exact ⟨_, named⟩

/-- In a well-formed store a record name reads as the record of its identifier. -/
theorem WellFormed.readEntry_pathFor {records : Records} {view : Name → Option File}
    (formed : WellFormed records view) (id : KeyId) :
    readEntry view (pathFor id) = (records id).elim (.error (.io .noSuchFile)) .ok := by
  cases stored : records id with
  | none => rw [readEntry, formed.unused id stored, Option.elim_none, Option.elim_none]
  | some key =>
    obtain ⟨mode, filed⟩ := formed.stored id key stored
    exact (readEntry_eq_ok _ _ _).mpr
      ⟨_, filed, (readRecord_eq_ok _ _).mpr ⟨rfl, (formed.keyed id key stored).2, rfl⟩⟩

/-- Loading answers with the record of the map. -/
theorem WellFormed.execute_load {records : Records} {place : Place} {view : Name → Option File}
    (formed : WellFormed records view) (stands : Stands place view) (id : KeyId) :
    execute enumerate (load id) place = ((records id).elim (.error (.io .noSuchFile)) .ok, place) := by
  have found := lookup_of_stands stands (pathFor id)
  cases stored : records id with
  | none =>
    rw [formed.unused id stored, Option.elim_none] at found
    simp only [load, execute_bind, execute_reporting, execute_demand, run_read, found, Except.bind,
      Except.mapError, Option.elim_none]
  | some key =>
    obtain ⟨mode, filed⟩ := formed.stored id key stored
    rw [filed, Option.elim_some] at found
    have decodes : decode (layout (rawOf key)) = .ok key :=
      (decode_layout _ _).mpr ⟨(formed.keyed id key stored).2, rfl⟩
    have readable : contentsOf ⟨.regular, mode, layout (rawOf key)⟩ = .ok (layout (rawOf key)) := by
      simp [contentsOf]
    simp only [load, execute_bind, execute_reporting, execute_demand, run_read, found, Except.bind,
      readable, Except.mapError, execute_lift, decodes, Option.elim_some]

/-- The same for a store without leftovers. -/
theorem execute_load (id : KeyId) {records : Records} {place : Place}
    (represented : Represents records place) :
    execute enumerate (load id) place =
      ((records id).elim (.error (.io .noSuchFile)) .ok, place) := by
  obtain ⟨view, held, stands⟩ := represented
  exact held.wellFormed.execute_load enumerate stands id

/-- In a well-formed store the record names read as distinct records of the map. -/
theorem WellFormed.readNames {records : Records} {view : Name → Option File}
    (formed : WellFormed records view) {names : List Name} (distinct : names.Nodup)
    (exact : ∀ name, name ∈ names ↔ isRecordName name ∧ (view name).isSome) :
    ∃ keys, names.mapM (readEntry view) = .ok keys ∧
      (∀ key, key ∈ keys ↔ records key.summary.id = some key) ∧
      (keys.map fun key => key.summary.id).Nodup := by
  have reads (name : Name) (member : name ∈ names) : ∃ key, readEntry view name = .ok key ∧
      records key.summary.id = some key ∧ name = pathFor key.summary.id := by
    obtain ⟨named, present⟩ := (exact name).mp member
    obtain ⟨id, rfl⟩ := formed.named name named present
    cases stored : records id with
    | none => simp [formed.unused id stored] at present
    | some key =>
      obtain ⟨rfl, _⟩ := formed.keyed id key stored
      exact ⟨key, by rw [formed.readEntry_pathFor, stored, Option.elim_some], stored, rfl⟩
  obtain ⟨keys, found⟩ := exists_readEntries fun name member => (reads name member).imp fun _ => And.left
  have related : List.Forall₂ (fun name key => name = pathFor key.summary.id) names keys := by
    have pairs := (readEntries_eq_ok _ _ _).mp found
    rw [List.forall₂_iff_zip] at pairs ⊢
    refine ⟨pairs.1, fun {name key} paired => ?_⟩
    obtain ⟨other, reading, _, named⟩ := reads name (List.of_mem_zip paired).1
    rw [pairs.2 paired] at reading
    rwa [Except.ok.inj reading]
  refine ⟨keys, found, fun key => ?_, ?_⟩
  · rw [mem_of_readEntries found]
    constructor
    · rintro ⟨name, member, reading⟩
      obtain ⟨other, same, stored, _⟩ := reads name member
      rw [reading] at same
      rwa [Except.ok.inj same]
    · intro stored
      have valid := (formed.keyed _ _ stored).2
      obtain ⟨mode, filed⟩ := formed.stored _ _ stored
      have recorded := decide_eq_true (extension_pathFor key.summary.id (valid_id key valid).1)
      refine ⟨pathFor key.summary.id, (exact _).mpr ⟨recorded, by rw [filed]; rfl⟩, ?_⟩
      rw [formed.readEntry_pathFor, stored, Option.elim_some]
  · have named : names = keys.map (fun key => pathFor key.summary.id) := by
      rw [← List.forall₂_eq_eq_eq, List.forall₂_map_right_iff]
      exact related
    have composed : (keys.map fun key => pathFor key.summary.id) =
        (keys.map fun key => key.summary.id).map pathFor := by rw [List.map_map]; rfl
    rw [named, composed] at distinct
    exact distinct.of_map _

/-- Sorting by identifier is strict when no identifier occurs twice. -/
theorem mergeSort_strict (keys : List StoredKey) (distinct : (keys.map fun key => key.summary.id).Nodup) :
    (keys.mergeSort idLe).Pairwise
      (fun left right => utf8 left.summary.id.asStr < utf8 right.summary.id.asStr) := by
  have ordered : (keys.mergeSort idLe).Pairwise (fun left right => idLe left right = true) := by
    apply List.pairwise_mergeSort
    · intro first second third
      simp only [idLe, Bool.not_eq_true', decide_eq_false_iff_not, List.not_lt]
      exact List.le_trans
    · intro left right
      simp only [idLe, Bool.or_eq_true, Bool.not_eq_true', decide_eq_false_iff_not, List.not_lt]
      exact List.le_total _ _
  have separate : (keys.mergeSort idLe).Pairwise
      (fun left right => left.summary.id ≠ right.summary.id) := by
    rw [← List.pairwise_map (f := fun key : StoredKey => key.summary.id)]
    exact ((List.mergeSort_perm keys idLe).map _).nodup_iff.mpr distinct
  refine (ordered.and separate).imp ?_
  rintro left right ⟨le, ne⟩
  simp only [idLe, Bool.not_eq_true', decide_eq_false_iff_not, List.not_lt] at le
  rcases List.le_iff_lt_or_eq.mp le with less | same
  · exact less
  · exact absurd (congrArg KeyId.mk (utf8_injective same)) ne

/-- The listing of a well-formed store returns every stored record once, in strictly
increasing byte order of identifiers, for every order in which the directory names
its entries. -/
theorem WellFormed.execute_list (perm : ∀ names, (enumerate names).Perm names) {records : Records}
    {place : Place} {view : Name → Option File} (formed : WellFormed records view)
    (stands : Stands place view) :
    ∃ keys, execute enumerate list place = (.ok keys, place) ∧
      (∀ key, key ∈ keys ↔ records key.summary.id = some key) ∧
      keys.Pairwise (fun left right => utf8 left.summary.id.asStr < utf8 right.summary.id.asStr) := by
  rcases stands with ⟨mode, files, rfl, shown⟩ | ⟨rfl, rfl⟩
  · obtain rfl : files.lookup = view := funext shown
    have distinct : ((enumerate files.keys).filter isRecordName).Nodup :=
      ((perm _).nodup_iff.mpr files.keys_nodup).filter _
    have exact (name : Name) : name ∈ (enumerate files.keys).filter isRecordName ↔
        isRecordName name ∧ (files.lookup name).isSome := by
      rw [List.mem_filter, (perm _).mem_iff, and_comm, AList.lookup_isSome]
      rfl
    obtain ⟨keys, reads, members, separate⟩ := formed.readNames distinct exact
    refine ⟨keys.mergeSort idLe, ?_, fun key => ?_, mergeSort_strict keys separate⟩
    · rw [execute_list_directory, reads]
      rfl
    · rw [(List.mergeSort_perm keys idLe).mem_iff, members]
  · refine ⟨[], rfl, fun key => ?_, List.Pairwise.nil⟩
    cases stored : records key.summary.id with
    | none => simp
    | some other =>
      obtain ⟨_, impossible⟩ := formed.stored _ _ stored
      cases impossible

/-- The same for a store without leftovers. -/
theorem execute_list (perm : ∀ names, (enumerate names).Perm names) {records : Records} {place : Place}
    (represented : Represents records place) :
    ∃ keys, execute enumerate list place = (.ok keys, place) ∧
      (∀ key, key ∈ keys ↔ records key.summary.id = some key) ∧
      keys.Pairwise (fun left right => utf8 left.summary.id.asStr < utf8 right.summary.id.asStr) := by
  obtain ⟨view, held, stands⟩ := represented
  exact held.wellFormed.execute_list enumerate perm stands

/-- Every record of a listing is valid, whatever the directory holds. -/
theorem valid_of_listed {place : Place} {keys : List StoredKey}
    (listed : (execute enumerate list place).1 = .ok keys) :
    ∀ key ∈ keys, validateRecord key = .ok () := by
  cases place with
  | absent =>
    cases listed
    nofun
  | occupied kind => cases listed
  | directory mode files =>
    rw [execute_list_directory] at listed
    cases reads : ((enumerate files.keys).filter isRecordName).mapM (readEntry files.lookup) with
    | error error =>
      rw [reads] at listed
      cases listed
    | ok found =>
      rw [reads] at listed
      cases listed
      intro key member
      obtain ⟨name, _, reading⟩ := (mem_of_readEntries reads key).mp
        ((List.mergeSort_perm found idLe).mem_iff.mp member)
      obtain ⟨file, _, recorded⟩ := (readEntry_eq_ok _ _ _).mp reading
      exact ((readRecord_eq_ok _ _).mp recorded).2.1

/-! ## The store as a map -/

/-- An order in which a directory names its entries. -/
structure Enumeration where
  order : List Name → List Name
  perm : ∀ names, (order names).Perm names

/-- One call on the store. A save carries the process that issues it. -/
inductive Call where
  | save (pid : UInt32) (key : StoredKey)
  | delete (id : KeyId)
  | load (id : KeyId)
  | list

/-- What a call of the store returns. -/
inductive Reply where
  | saved (result : Except StoreError Unit)
  | deleted (result : Except StoreError Unit)
  | loaded (result : Except StoreError StoredKey)
  | listed (result : Except StoreError (List StoredKey))

/-- The call ended in an error. -/
def Reply.rejected : Reply → Bool
  | saved result => !result.isOk
  | deleted result => !result.isOk
  | loaded result => !result.isOk
  | listed result => !result.isOk

/-- The reply to one call and the directory left behind. -/
def serve (enumeration : Enumeration) (place : Place) : Call → Reply × Place
  | .save pid key => (execute enumeration.order (save pid key) place).map .saved fun reached => reached
  | .delete id => (execute enumeration.order (delete id) place).map .deleted fun reached => reached
  | .load id => (execute enumeration.order (load id) place).map .loaded fun reached => reached
  | .list => (execute enumeration.order list place).map .listed fun reached => reached

/-- What a finite map of valid records answers to a call, and the map after it. -/
inductive Answers (records : Records) : Call → Reply → Records → Prop where
  | saved (pid : UInt32) (key : StoredKey) (valid : validateRecord key = .ok ()) :
      Answers records (.save pid key) (.saved (.ok ()))
        (Function.update records key.summary.id (some key))
  | saveRefused (pid : UInt32) (key : StoredKey) (error : StoreError)
      (invalid : validateRecord key ≠ .ok ()) :
      Answers records (.save pid key) (.saved (.error error)) records
  | deleted (id : KeyId) (key : StoredKey) (stored : records id = some key) :
      Answers records (.delete id) (.deleted (.ok ())) (Function.update records id none)
  | deleteRefused (id : KeyId) (error : StoreError) (missing : records id = none) :
      Answers records (.delete id) (.deleted (.error error)) records
  | loaded (id : KeyId) (key : StoredKey) (stored : records id = some key) :
      Answers records (.load id) (.loaded (.ok key)) records
  | loadRefused (id : KeyId) (error : StoreError) (missing : records id = none) :
      Answers records (.load id) (.loaded (.error error)) records
  | listed (keys : List StoredKey) (values : ∀ key, key ∈ keys ↔ ∃ id, records id = some key)
      (ordered : keys.Pairwise fun left right =>
        utf8 left.summary.id.asStr < utf8 right.summary.id.asStr) :
      Answers records .list (.listed (.ok keys)) records

/-- Every call of the run is answered as the map answers it, and a rejected call
leaves the directory itself as it was. Each call may see its own entry order. -/
def Refines (records : Records) (place : Place) : List (Call × Enumeration) → Prop
  | [] => True
  | (call, enumeration) :: rest =>
    ∃ after, Answers records call (serve enumeration place call).1 after ∧
      ((serve enumeration place call).1.rejected → (serve enumeration place call).2 = place) ∧
      Refines after (serve enumeration place call).2 rest

/-- One call on a represented map answers as the map does and represents the map
after it. -/
theorem serve_step (enumeration : Enumeration) (call : Call) {records : Records} {place : Place}
    (represented : Represents records place) :
    ∃ after, Answers records call (serve enumeration place call).1 after ∧
      ((serve enumeration place call).1.rejected → (serve enumeration place call).2 = place) ∧
      Represents after (serve enumeration place call).2 := by
  cases call with
  | save pid key =>
    cases valid : validateRecord key with
    | ok _ =>
      obtain ⟨reached, runs, after⟩ := execute_save enumeration.order pid key valid represented
      simp only [serve, runs, Prod.map]
      exact ⟨_, .saved pid key valid, nofun, after⟩
    | error error =>
      have invalid : validateRecord key ≠ .ok () := by rw [valid]; nofun
      simp only [serve, execute_save_invalid enumeration.order pid key error valid, Prod.map]
      exact ⟨_, .saveRefused pid key error invalid, fun _ => trivial, represented⟩
  | delete id =>
    cases stored : records id with
    | some key =>
      obtain ⟨reached, runs, after⟩ := execute_delete enumeration.order id represented stored
      simp only [serve, runs, Prod.map]
      exact ⟨_, .deleted id key stored, nofun, after⟩
    | none =>
      obtain ⟨error, runs⟩ := execute_delete_missing enumeration.order id represented stored
      simp only [serve, runs, Prod.map]
      exact ⟨_, .deleteRefused id error stored, fun _ => trivial, represented⟩
  | load id =>
    simp only [serve, execute_load enumeration.order id represented, Prod.map]
    refine ⟨records, ?_, fun _ => trivial, represented⟩
    cases stored : records id with
    | some key => exact .loaded id key stored
    | none => exact .loadRefused id _ stored
  | list =>
    obtain ⟨keys, runs, members, ordered⟩ :=
      execute_list enumeration.order enumeration.perm represented
    simp only [serve, runs, Prod.map]
    refine ⟨records, .listed keys (fun key => ?_) ordered, fun _ => trivial, represented⟩
    rw [members]
    refine ⟨fun stored => ⟨_, stored⟩, ?_⟩
    rintro ⟨id, stored⟩
    obtain ⟨view, held, _⟩ := represented
    rwa [(held.keyed id key stored).1]

/-- A represented map stays represented along every run. -/
theorem refines_of_represented (calls : List (Call × Enumeration)) {records : Records} {place : Place}
    (represented : Represents records place) : Refines records place calls := by
  induction calls generalizing records place with
  | nil => trivial
  | cons first rest inductionHypothesis =>
    obtain ⟨call, enumeration⟩ := first
    obtain ⟨after, answered, rejected, reached⟩ := serve_step enumeration call represented
    exact ⟨after, answered, rejected, inductionHypothesis reached⟩

/-- The store is a finite map from identifiers to records. From a directory that
is absent or empty, every sequence of saves, deletions, loads and listings
answers as the map that starts empty, whatever order the directory gives its
entries in at each call.

Proof: the empty map is represented by both starting places, and each call keeps
the representation. -/
theorem store_refines_map (mode : Nat) (calls : List (Call × Enumeration)) :
    Refines (fun _ => none) .absent calls ∧ Refines (fun _ => none) (.directory mode ∅) calls := by
  have held : Holds (fun _ => none) (fun _ => none) := ⟨nofun, by simp⟩
  constructor
  · exact refines_of_represented calls ⟨_, held, .inr ⟨rfl, rfl⟩⟩
  · exact refines_of_represented calls ⟨_, held, .inl ⟨mode, ∅, rfl, fun _ => rfl⟩⟩

end Keyvisor.KeyStore
