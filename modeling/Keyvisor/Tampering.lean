import Keyvisor.Durability

/-!
# Directories that others wrote

A listing takes the identifier of a record from inside its file, while loading and
deleting take it from the file's name. The two agree exactly on directories in which
every record file carries the name of the identifier inside it; neither operation
checks that, so a copied or renamed record file is accepted by the listing.
-/

namespace Keyvisor.KeyStore

open Foundation Foundation.Text Foundation.Directory RecordCodec

/-- What the listing, the loads and the deletions of one directory have to say about
the same records. -/
structure Agrees (place : Place) (keys : List StoredKey) : Prop where
  distinct : (keys.map fun key => key.summary.id).Nodup
  loads : ∀ (enumeration : Enumeration) key, key ∈ keys →
    (execute enumeration.order (load key.summary.id) place).1 = .ok key
  listed : ∀ (enumeration : Enumeration) id key,
    (execute enumeration.order (load id) place).1 = .ok key → key.summary.id = id ∧ key ∈ keys
  deletes : ∀ (enumeration : Enumeration) key, key ∈ keys → ∀ reached,
    execute enumeration.order (delete key.summary.id) place = (.ok (), reached) →
      ∀ later : Enumeration, ∃ rest, (execute later.order list reached).1 = .ok rest ∧
        (rest.map fun other => other.summary.id).Nodup ∧
        ∀ other, other ∈ rest ↔ other ∈ keys ∧ other ≠ key

/-- Every record under a name that is read stands under the name of its own
identifier. -/
def Filed (view : Name → Option File) : Prop :=
  ∀ name file key, Read name → view name = some file → file.kind ≠ .directory →
    decode file.contents = .ok key → name = pathFor key.summary.id

/-! ## Listings and their names -/

/-- A load succeeds exactly on a decodable file that is no directory. -/
theorem loadFile_eq_ok (entry : Option File) (key : StoredKey) :
    loadFile entry = .ok key ↔
      ∃ file, entry = some file ∧ file.kind ≠ .directory ∧ decode file.contents = .ok key := by
  cases entry with
  | none => simp [loadFile]
  | some file =>
    by_cases folder : file.kind = .directory
    · simp [loadFile, folder]
    · simp [loadFile, folder]

/-- What a listing reads a load of that name reads too. -/
theorem decode_of_readEntry {view : Name → Option File} {name : Name} {key : StoredKey}
    (reads : readEntry view name = .ok key) :
    ∃ file, view name = some file ∧ file.kind ≠ .directory ∧ decode file.contents = .ok key := by
  obtain ⟨file, present, recorded⟩ := (readEntry_eq_ok _ _ _).mp reads
  obtain ⟨regular, valid, contents⟩ := (readRecord_eq_ok _ _).mp recorded
  refine ⟨file, present, ?_, (decode_layout _ _).mpr ⟨valid, contents⟩⟩
  rw [regular]
  nofun

/-- A successful listing has read every record name, in the order of some list of
them. -/
theorem names_of_lists {place : Place} {view : Name → Option File} (stands : Stands place view)
    {keys : List StoredKey} (lists : Lists place (.ok keys)) :
    ∃ names found, RecordNames view names ∧
      List.Forall₂ (fun name key => readEntry view name = .ok key) names found ∧ found.Perm keys := by
  obtain ⟨names, recorded, collects⟩ := (lists_iff stands _).mp lists
  unfold collect at collects
  cases reads : names.mapM (readEntry view) with
  | error error =>
    rw [reads] at collects
    cases collects
  | ok found =>
    rw [reads] at collects
    cases collects
    exact ⟨names, found, recorded, (readEntries_eq_ok _ _ _).mp reads, (List.mergeSort_perm found idLe).symm⟩

/-- The listed records are those of the record names. -/
theorem mem_of_lists {place : Place} {view : Name → Option File} (stands : Stands place view)
    {keys : List StoredKey} (lists : Lists place (.ok keys)) (key : StoredKey) :
    key ∈ keys ↔ ∃ name, isRecordName name ∧ readEntry view name = .ok key := by
  obtain ⟨names, found, recorded, pairs, perm⟩ := names_of_lists stands lists
  rw [← perm.mem_iff, mem_of_readEntries ((readEntries_eq_ok _ _ _).mpr pairs)]
  constructor
  · rintro ⟨name, member, reads⟩
    exact ⟨name, ((recorded.exact name).mp member).1, reads⟩
  · rintro ⟨name, named, reads⟩
    obtain ⟨file, present, _⟩ := decode_of_readEntry reads
    exact ⟨name, (recorded.exact name).mpr ⟨named, by rw [present]; rfl⟩, reads⟩

/-- Two names with one record make the listing name its identifier twice. -/
theorem name_unique {view : Name → Option File} {names : List Name} {found : List StoredKey}
    (pairs : List.Forall₂ (fun name key => readEntry view name = .ok key) names found)
    (distinct : (found.map fun key => key.summary.id).Nodup) {first second : Name} {key : StoredKey}
    (early : first ∈ names) (late : second ∈ names) (reads : readEntry view first = .ok key)
    (again : readEntry view second = .ok key) : first = second := by
  obtain ⟨firstIndex, firstBound, rfl⟩ := List.getElem_of_mem early
  obtain ⟨secondIndex, secondBound, rfl⟩ := List.getElem_of_mem late
  have sameLength := pairs.length_eq
  have identified (index : Nat) (bound : index < names.length)
      (holds : readEntry view names[index] = .ok key) :
      (found.map fun key => key.summary.id)[index]? = some key.summary.id := by
    have paired := pairs.get bound (sameLength ▸ bound)
    simp only [List.get_eq_getElem] at paired
    rw [paired] at holds
    rw [List.getElem?_map, List.getElem?_eq_getElem (sameLength ▸ bound), Option.map_some, Except.ok.inj holds]
  have sameIndex : firstIndex = secondIndex := by
    have bounded : firstIndex < (found.map fun key => key.summary.id).length := by
      rwa [List.length_map, ← sameLength]
    apply (List.getElem?_inj bounded distinct).mp
    rw [identified firstIndex firstBound reads, identified secondIndex secondBound again]
  subst sameIndex
  rfl

/-- When every record stands under its own name, the listed identifiers are
distinct. -/
theorem distinct_of_filed {view : Name → Option File} (filed : Filed view) {names : List Name}
    {found : List StoredKey} (recorded : RecordNames view names)
    (pairs : List.Forall₂ (fun name key => readEntry view name = .ok key) names found) :
    (found.map fun key => key.summary.id).Nodup := by
  have named : names = found.map (fun key => pathFor key.summary.id) := by
    rw [← List.forall₂_eq_eq_eq, List.forall₂_map_right_iff]
    rw [List.forall₂_iff_zip] at pairs ⊢
    refine ⟨pairs.1, fun {name key} paired => ?_⟩
    obtain ⟨file, present, plain, decodes⟩ := decode_of_readEntry (pairs.2 paired)
    exact filed name file key (.inl ((recorded.exact name).mp (List.of_mem_zip paired).1).1) present plain decodes
  have composed : (found.map fun key => pathFor key.summary.id) =
      (found.map fun key => key.summary.id).map pathFor := by rw [List.map_map]; rfl
  have distinct := recorded.distinct
  rw [named, composed] at distinct
  exact distinct.of_map _

/-- A decoded record has a name that a listing reads. -/
theorem isRecordName_of_decodes {contents : Bytes} {key : StoredKey} (decodes : decode contents = .ok key) :
    isRecordName (pathFor key.summary.id) := by
  have valid := ((decode_layout _ _).mp decodes).1
  exact decide_eq_true (extension_pathFor key.summary.id (valid_id key valid).1)

/-- Every name of a successful listing was read. -/
theorem exists_of_pairs {view : Name → Option File} {names : List Name} {found : List StoredKey}
    (pairs : List.Forall₂ (fun name key => readEntry view name = .ok key) names found) {name : Name}
    (member : name ∈ names) : ∃ key, readEntry view name = .ok key := by
  induction pairs with
  | nil => cases member
  | cons first others inductionHypothesis =>
    rcases List.mem_cons.mp member with rfl | later
    · exact ⟨_, first⟩
    · exact inductionHypothesis later

/-- When the listing succeeds, a decodable file under a record name is read. -/
theorem readEntry_of_lists {place : Place} {view : Name → Option File} (stands : Stands place view)
    {keys : List StoredKey} (lists : Lists place (.ok keys)) {name : Name} {file : File} {key : StoredKey}
    (named : isRecordName name) (present : view name = some file) (decodes : decode file.contents = .ok key) :
    readEntry view name = .ok key := by
  obtain ⟨names, found, recorded, pairs, _⟩ := names_of_lists stands lists
  have member : name ∈ names := (recorded.exact name).mpr ⟨named, by rw [present]; rfl⟩
  obtain ⟨other, reads⟩ := exists_of_pairs pairs member
  obtain ⟨held, shown, _, read⟩ := decode_of_readEntry reads
  rw [present] at shown
  cases shown
  rw [decodes] at read
  cases read
  exact reads

/-! ## Agreement -/

/-- After a deletion the listing has every other record. -/
theorem lists_of_removed {place reached : Place} {view : Name → Option File} (stands : Stands place view)
    (filed : Filed view) {keys : List StoredKey} (lists : Lists place (.ok keys)) {key : StoredKey}
    (member : key ∈ keys) (shown : Shows reached (Function.update view (pathFor key.summary.id) none))
    (later : Enumeration) :
    ∃ rest, (execute later.order list reached).1 = .ok rest ∧
      (rest.map fun other => other.summary.id).Nodup ∧ ∀ other, other ∈ rest ↔ other ∈ keys ∧ other ≠ key := by
  obtain ⟨names, _, recorded, pairs, _⟩ := names_of_lists stands lists
  have members := mem_of_lists stands lists
  have ownName {name : Name} {other : StoredKey} (named : isRecordName name)
      (reads : readEntry view name = .ok other) : name = pathFor other.summary.id := by
    obtain ⟨file, present, plain, decodes⟩ := decode_of_readEntry reads
    exact filed name file other (.inl named) present plain decodes
  have kept {name : Name} (elsewhere : name ≠ pathFor key.summary.id) :
      readEntry (Function.update view (pathFor key.summary.id) none) name = readEntry view name := by
    rw [readEntry, Function.update_of_ne elsewhere, readEntry]
  have gone {name : Name} (present : (Function.update view (pathFor key.summary.id) none name).isSome) :
      name ≠ pathFor key.summary.id := by
    rintro rfl
    rw [Function.update_self] at present
    cases present
  have filedAfter : Filed (Function.update view (pathFor key.summary.id) none) := by
    intro name file other read present plain decodes
    have elsewhere := gone (by rw [present]; rfl)
    rw [Function.update_of_ne elsewhere] at present
    exact filed name file other read present plain decodes
  obtain ⟨after, recordedAfter, collects⟩ := (lists_iff (.inl shown) _).mp ⟨later, rfl⟩
  obtain ⟨found, reads⟩ := exists_readEntries fun name member => by
    obtain ⟨named, present⟩ := (recordedAfter.exact name).mp member
    have elsewhere := gone present
    rw [Function.update_of_ne elsewhere] at present
    rw [kept elsewhere]
    exact exists_of_pairs pairs ((recorded.exact name).mpr ⟨named, present⟩)
  rw [collect, reads] at collects
  refine ⟨found.mergeSort idLe, collects.symm, ?_, fun other => ?_⟩
  · apply ((List.mergeSort_perm found idLe).map _).nodup_iff.mpr
    exact distinct_of_filed filedAfter recordedAfter ((readEntries_eq_ok _ _ _).mp reads)
  · rw [mem_of_lists (.inl shown) ⟨later, collects.symm⟩, members]
    constructor
    · rintro ⟨name, named, reading⟩
      obtain ⟨_, present, _⟩ := decode_of_readEntry reading
      have elsewhere := gone (by rw [present]; rfl)
      rw [kept elsewhere] at reading
      refine ⟨⟨name, named, reading⟩, ?_⟩
      rintro rfl
      exact elsewhere (ownName named reading)
    · rintro ⟨⟨name, named, reading⟩, different⟩
      refine ⟨name, named, ?_⟩
      rw [kept, reading]
      rintro rfl
      obtain ⟨own, ownNamed, ownReading⟩ := (members key).mp member
      rw [ownName ownNamed ownReading, reading] at ownReading
      exact different (Except.ok.inj ownReading)

/-- A listing agrees with the loads and the deletions of its directory exactly when
every record under a name that is read stands under the name of its own
identifier. -/
theorem listing_agrees_iff_filed {place : Place} {view : Name → Option File} (stands : Stands place view)
    (enumeration : Enumeration) {keys : List StoredKey}
    (listed : (execute enumeration.order list place).1 = .ok keys) : Agrees place keys ↔ Filed view := by
  have lists : Lists place (.ok keys) := ⟨enumeration, listed⟩
  obtain ⟨names, found, recorded, pairs, perm⟩ := names_of_lists stands lists
  have members := mem_of_lists stands lists
  constructor
  · intro agrees name file key read present plain decodes
    by_cases named : isRecordName name = true
    · have reads := readEntry_of_lists stands lists named present decodes
      have member := (members key).mpr ⟨name, named, reads⟩
      have loads := agrees.loads enumeration key member
      rw [execute_load_stands enumeration.order stands] at loads
      obtain ⟨own, ownPresent, _, ownDecodes⟩ := (loadFile_eq_ok _ _).mp loads
      have ownNamed := isRecordName_of_decodes decodes
      have distinct : (found.map fun key => key.summary.id).Nodup :=
        (perm.map _).nodup_iff.mpr agrees.distinct
      exact name_unique pairs distinct ((recorded.exact _).mpr ⟨named, by rw [present]; rfl⟩)
        ((recorded.exact _).mpr ⟨ownNamed, by rw [ownPresent]; rfl⟩) reads
        (readEntry_of_lists stands lists ownNamed ownPresent ownDecodes)
    · obtain ⟨id, rfl⟩ := read.resolve_left named
      have loads : (execute enumeration.order (load id) place).1 = .ok key := by
        rw [execute_load_stands enumeration.order stands]
        exact (loadFile_eq_ok _ _).mpr ⟨file, present, plain, decodes⟩
      rw [(agrees.listed enumeration id key loads).1]
  · intro filed
    refine ⟨?_, ?_, ?_, ?_⟩
    · exact (perm.map _).nodup_iff.mp (distinct_of_filed filed recorded pairs)
    · intro later key member
      obtain ⟨name, named, reads⟩ := (members key).mp member
      obtain ⟨file, present, plain, decodes⟩ := decode_of_readEntry reads
      obtain rfl := filed name file key (.inl named) present plain decodes
      rw [execute_load_stands later.order stands]
      exact (loadFile_eq_ok _ _).mpr ⟨file, present, plain, decodes⟩
    · intro later id key loads
      rw [execute_load_stands later.order stands] at loads
      obtain ⟨file, present, plain, decodes⟩ := (loadFile_eq_ok _ _).mp loads
      have own := filed _ file key (.inr ⟨id, rfl⟩) present plain decodes
      have named := isRecordName_of_decodes decodes
      rw [own] at present
      exact ⟨(pathFor_injective own).symm,
        (members key).mpr ⟨_, named, readEntry_of_lists stands lists named present decodes⟩⟩
    · intro earlier key member reached runs later
      obtain ⟨other, again, shown⟩ := removed_of_delete runs
      obtain rfl := stands.unique again
      exact lists_of_removed stands filed lists member shown later

/-- A store with the sample record alone. -/
def sampleFiles : Files := (∅ : Files).insert (pathFor ⟨"k"⟩) (recordFile Durability.Sample.key)

/-- The same with a copy of the record file beside it. -/
def copiedFiles : Files := sampleFiles.insert (utf8 "copy.key") (recordFile Durability.Sample.key)

/-- A store with two records and a file that no listing reads. -/
def pairedFiles : Files :=
  (((∅ : Files).insert (pathFor ⟨"m"⟩) (recordFile Durability.Sample.other)).insert (pathFor ⟨"k"⟩)
    (recordFile Durability.Sample.key)).insert (utf8 "notes.txt") ⟨.regular, 0o644, utf8 "work and home"⟩

/-- What stands in it. -/
theorem pairedFiles_cases {name : Name} {file : File} (present : pairedFiles.lookup name = some file) :
    (name = utf8 "notes.txt" ∧ file = ⟨.regular, 0o644, utf8 "work and home"⟩) ∨
      (name = pathFor ⟨"k"⟩ ∧ file = recordFile Durability.Sample.key) ∨
      (name = pathFor ⟨"m"⟩ ∧ file = recordFile Durability.Sample.other) := by
  by_cases notes : name = utf8 "notes.txt"
  · subst notes
    exact .inl ⟨rfl, Option.some.inj (present.symm.trans (AList.lookup_insert _))⟩
  rw [pairedFiles, AList.lookup_insert_ne notes] at present
  by_cases first : name = pathFor ⟨"k"⟩
  · subst first
    exact .inr (.inl ⟨rfl, Option.some.inj (present.symm.trans (AList.lookup_insert _))⟩)
  rw [AList.lookup_insert_ne first] at present
  by_cases second : name = pathFor ⟨"m"⟩
  · subst second
    exact .inr (.inr ⟨rfl, Option.some.inj (present.symm.trans (AList.lookup_insert _))⟩)
  · rw [AList.lookup_insert_ne second] at present
    cases present

/-- The listing of records that are filed under their own names agrees with load and
delete, whatever else is in the directory. -/
theorem sample_listing_agrees :
    (execute id list (.directory 0o700 pairedFiles)).1 = .ok [Durability.Sample.key, Durability.Sample.other] ∧
      Agrees (.directory 0o700 pairedFiles) [Durability.Sample.key, Durability.Sample.other] := by
  have reads : ((id pairedFiles.keys).filter isRecordName).mapM (readEntry pairedFiles.lookup) =
      .ok [Durability.Sample.key, Durability.Sample.other] := by decide +kernel
  have listed : (execute id list (.directory 0o700 pairedFiles)).1 =
      .ok [Durability.Sample.key, Durability.Sample.other] := by
    rw [execute_list_directory, reads]
    exact congrArg Except.ok (List.mergeSort_of_pairwise (by decide +kernel))
  have filed : Filed pairedFiles.lookup := by
    intro name file key _ present _ decodes
    rcases pairedFiles_cases present with ⟨rfl, rfl⟩ | ⟨rfl, rfl⟩ | ⟨rfl, rfl⟩
    · cases decodes
    · cases decodes
      rfl
    · cases decodes
      rfl
  exact ⟨listed, (listing_agrees_iff_filed (.inl ⟨0o700, pairedFiles, rfl, fun _ => rfl⟩)
    ⟨id, fun _ => List.Perm.refl _⟩ listed).mpr filed⟩

/-- A copied record file is listed a second time under the same identifier. -/
theorem copied_record_is_listed_twice :
    (execute id list (.directory 0o700 copiedFiles)).1 =
        .ok [Durability.Sample.key, Durability.Sample.key] ∧
      ¬ Agrees (.directory 0o700 copiedFiles) [Durability.Sample.key, Durability.Sample.key] := by
  have sorted : [Durability.Sample.key, Durability.Sample.key].mergeSort idLe =
      [Durability.Sample.key, Durability.Sample.key] :=
    List.perm_replicate.mp (List.mergeSort_perm (List.replicate 2 Durability.Sample.key) idLe)
  have reads : ((id copiedFiles.keys).filter isRecordName).mapM (readEntry copiedFiles.lookup) =
      .ok [Durability.Sample.key, Durability.Sample.key] := rfl
  constructor
  · rw [execute_list_directory, reads]
    exact congrArg Except.ok sorted
  · intro agrees
    simpa using agrees.distinct

end Keyvisor.KeyStore
