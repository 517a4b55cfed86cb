import Keyvisor.Foundation.Mutex
import Keyvisor.KeyStore
import Mathlib.Data.List.DropRight

/-!
# The signing history

Executable translation of `keyvisor-agent/src/history.rs` as routines over the
directory that holds the history file, together with the entry that the agent's
`record_history` builds. The file is a magic value, a 32-bit count and that many
entries; it is replaced as a whole by every append.

The codec is exact, an append of a valid entry keeps the newest entries and
passes only through places that show the old or the new history, and any number
of threads that append under the history mutex therefore leave the newest
entries in the order in which they took it.
-/

namespace Keyvisor.History

open Foundation Foundation.Text Foundation.Directory

/-- `b"KEYHST\x00\x01"`. -/
def magic : Bytes := [75, 69, 89, 72, 83, 84, 0, 1]

def maxEntries : Nat := 200

def maxTextLen : Nat := 4 * 1024

/-- `HistoryOutcome`. -/
inductive HistoryOutcome where
  | succeeded
  | failed
  deriving DecidableEq, Repr

/-- `HistoryEntry`. -/
structure HistoryEntry where
  timestampSeconds : UInt64
  keyId : KeyId
  keyName : String
  usePolicy : KeyUsePolicy
  outcome : HistoryOutcome
  deriving DecidableEq, Repr

/-- `HistoryError`. -/
inductive HistoryError where
  | io (error : IoError)
  | invalidData
  deriving DecidableEq, Repr

/-- The text of a history error. -/
def HistoryError.message : HistoryError → String
  | io error => "history I/O failed: " ++ error.text
  | invalidData => "signing history is invalid"

/-- `validate_entry`. -/
def validateEntry (entry : HistoryEntry) : Except HistoryError Unit :=
  if (utf8 entry.keyId.asStr).isEmpty
      || maxTextLen < (utf8 entry.keyId.asStr).length
      || (utf8 entry.keyName).isEmpty
      || maxTextLen < (utf8 entry.keyName).length then
    .error .invalidData
  else
    .ok ()

/-- The tag of a policy. -/
def policyTag : KeyUsePolicy → UInt8
  | .noPin => 1
  | .tpmPin => 2

/-- The tag of an outcome. -/
def outcomeTag : HistoryOutcome → UInt8
  | .succeeded => 1
  | .failed => 2

/-- The policy of a tag. -/
def readPolicy (tag : UInt8) : Except HistoryError KeyUsePolicy :=
  match tag with
  | 1 => .ok .noPin
  | 2 => .ok .tpmPin
  | _ => .error .invalidData

/-- The outcome of a tag. -/
def readOutcome (tag : UInt8) : Except HistoryError HistoryOutcome :=
  match tag with
  | 1 => .ok .succeeded
  | 2 => .ok .failed
  | _ => .error .invalidData

/-- A text with its length. -/
def pushText (output : Bytes) (value : String) : Except HistoryError Bytes :=
  Reader.pushCounted .invalidData maxTextLen output (utf8 value)

/-- The loop body of `encode`. -/
def encodeEntry (output : Bytes) (entry : HistoryEntry) : Except HistoryError Bytes := do
  validateEntry entry
  let output := output ++ BigEndian.encode 8 entry.timestampSeconds.toNat
  let output ← pushText output entry.keyId.asStr
  let output ← pushText output entry.keyName
  let output := output ++ [policyTag entry.usePolicy]
  return output ++ [outcomeTag entry.outcome]

/-- `encode`. -/
def encode (entries : List HistoryEntry) : Except HistoryError Bytes :=
  if maxEntries < entries.length then .error .invalidData
  else entries.foldlM encodeEntry (magic ++ BigEndian.encode 4 entries.length)

def take (length : Nat) : Reader HistoryError Bytes := Reader.take .invalidData length

def readU32 : Reader HistoryError Nat := Reader.number .invalidData 4

def readText : Reader HistoryError String := textField .invalidData .invalidData maxTextLen

/-- The loop body of `decode`. -/
def decodeEntry : Reader HistoryError HistoryEntry := do
  let timestamp ← Reader.number .invalidData 8
  let keyId ← readText
  let keyName ← readText
  let usePolicy ← readPolicy (← Reader.byte .invalidData)
  let outcome ← readOutcome (← Reader.byte .invalidData)
  let entry : HistoryEntry :=
    { timestampSeconds := UInt64.ofNat timestamp, keyId := ⟨keyId⟩, keyName, usePolicy, outcome }
  validateEntry entry
  return entry

/-- Everything that `decode` reads before its end-of-input test. -/
def decodeEntries : Reader HistoryError (List HistoryEntry) := do
  let found ← take magic.length
  Reader.require (found == magic) .invalidData
  let count ← readU32
  Reader.require (count ≤ maxEntries) .invalidData
  Reader.times decodeEntry count

/-- `decode`. -/
def decode (bytes : Bytes) : Except HistoryError (List HistoryEntry) :=
  Reader.complete decodeEntries .invalidData bytes

/-- The file name that `default_history_path` ends in. -/
def historyName : Name := utf8 "history.bin"

/-- The temporary name of one attempt. -/
def temporaryName (pid : UInt32) (attempt : Nat) : Name :=
  utf8 ".history." ++ decimal pid.toNat ++ utf8 "." ++ decimal attempt ++ utf8 ".tmp"

/-- `ensure_private_directory` of the history. -/
def ensurePrivateDirectory : Task IoError Unit :=
  ensureDirectory 0o700 "history directory is not a directory"

/-- The candidates of `create_temporary_file`. -/
def temporaryNames (pid : UInt32) : List Name := (List.range 100).map (temporaryName pid)

/-- The temporary file found by the attempt loop, or its exhaustion. -/
def allocated (temporary : Option Name) : Except IoError Name :=
  match temporary with
  | some name => .ok name
  | none => .error ⟨.alreadyExists, "cannot allocate a unique history temporary file"⟩

/-- `create_temporary_file` of the history. -/
def createTemporaryFile (pid : UInt32) : Task IoError Name := do
  let temporary ← createFirst 0o600 (temporaryNames pid)
  allocated temporary

/-- The rest of `list` after the metadata of the file is known. -/
def listFound (path : Name) : Except IoError (FileKind × Nat) → Task HistoryError (List HistoryEntry)
  | .ok metadata =>
    if metadata.1 ≠ .regular then throw .invalidData
    else if metadata.2 &&& 0o077 ≠ 0 then throw .invalidData
    else do
      let bytes ← reporting .io (demand (read path))
      decode bytes
  | .error error => if error.kind = .notFound then pure [] else throw (.io error)

/-- `HistoryStore::list`. -/
def list (path : Name) : Task HistoryError (List HistoryEntry) := do
  let metadata ← observe (inspect path)
  listFound path metadata

/-- The directory is the parent of the history file, which always has one. -/
def save (pid : UInt32) (path : Name) (entries : List HistoryEntry) : Task HistoryError Unit := do
  reporting .io ensurePrivateDirectory
  let bytes ← encode entries
  let temporary ← reporting .io (createTemporaryFile pid)
  reporting .io (publish temporary path bytes)

/-- Drop the oldest entries beyond the limit. -/
def trimmed (entries : List HistoryEntry) : List HistoryEntry :=
  if maxEntries < entries.length then entries.drop (entries.length - maxEntries) else entries

/-- `HistoryStore::append`. -/
def append (pid : UInt32) (path : Name) (entry : HistoryEntry) : Task HistoryError Unit := do
  validateEntry entry
  let entries ← list path
  save pid path (trimmed (entries ++ [entry]))

/-- The entry that `record_history` builds. -/
def historyEntry (timestampSeconds : UInt64) (key : RecordCodec.StoredKey) (outcome : HistoryOutcome) :
    HistoryEntry where
  timestampSeconds := timestampSeconds
  keyId := key.summary.id
  keyName := key.summary.name
  usePolicy := key.summary.usePolicy
  outcome := outcome

/-! ## The codec -/

/-- A policy is read from its own tag only. -/
theorem readPolicy_eq_ok (tag : UInt8) (policy : KeyUsePolicy) :
    readPolicy tag = .ok policy ↔ tag = policyTag policy := by
  unfold readPolicy
  split <;> cases policy <;> simp_all [policyTag]

/-- An outcome is read from its own tag only. -/
theorem readOutcome_eq_ok (tag : UInt8) (outcome : HistoryOutcome) :
    readOutcome tag = .ok outcome ↔ tag = outcomeTag outcome := by
  unfold readOutcome
  split <;> cases outcome <;> simp_all [outcomeTag]

/-- The bytes of one entry. -/
def spelling (entry : HistoryEntry) : Bytes :=
  BigEndian.encode 8 entry.timestampSeconds.toNat ++ (Reader.field (utf8 entry.keyId.asStr) ++
    (Reader.field (utf8 entry.keyName) ++ ([policyTag entry.usePolicy] ++ [outcomeTag entry.outcome])))

/-- The bytes of a whole history. -/
def layout (entries : List HistoryEntry) : Bytes :=
  magic ++ (BigEndian.encode 4 entries.length ++ entries.flatMap spelling)

/-- A valid entry has both texts within the text limit. -/
theorem bounded_of_valid (entry : HistoryEntry) (valid : validateEntry entry = .ok ()) :
    (utf8 entry.keyId.asStr).length ≤ maxTextLen ∧ (utf8 entry.keyName).length ≤ maxTextLen := by
  unfold validateEntry at valid
  split at valid
  · cases valid
  · rename_i accepted
    simp only [Bool.or_eq_true, decide_eq_true_eq, not_or, Nat.not_lt] at accepted
    exact ⟨accepted.1.1.2, accepted.2⟩

/-- One entry is written exactly when it is valid. -/
theorem encodeEntry_eq_ok (output written : Bytes) (entry : HistoryEntry) :
    encodeEntry output entry = .ok written ↔
      validateEntry entry = .ok () ∧ written = output ++ spelling entry := by
  have push (output written : Bytes) (value : String) : pushText output value = .ok written ↔
      (utf8 value).length ≤ maxTextLen ∧ written = output ++ Reader.field (utf8 value) :=
    Reader.pushCounted_eq_ok _ maxTextLen (by decide) output (utf8 value) written
  simp only [encodeEntry, bind_eq_ok, push, pure, Except.pure, Except.ok.injEq]
  constructor
  · rintro ⟨_, valid, _, ⟨_, rfl⟩, _, ⟨_, rfl⟩, rfl⟩
    exact ⟨valid, by simp [spelling]⟩
  · rintro ⟨valid, rfl⟩
    obtain ⟨idFits, nameFits⟩ := bounded_of_valid entry valid
    exact ⟨(), valid, _, ⟨idFits, rfl⟩, _, ⟨nameFits, rfl⟩, by simp [spelling]⟩

/-- The writing loop succeeds exactly on valid entries and appends each of them. -/
theorem encodeLoop_eq_ok (entries : List HistoryEntry) (output written : Bytes) :
    entries.foldlM encodeEntry output = .ok written ↔
      (∀ entry ∈ entries, validateEntry entry = .ok ()) ∧ written = output ++ entries.flatMap spelling := by
  induction entries generalizing output with
  | nil => simp [pure, Except.pure, eq_comm]
  | cons first rest inductionHypothesis =>
    simp only [List.foldlM_cons, bind_eq_ok, encodeEntry_eq_ok, inductionHypothesis, List.forall_mem_cons,
      List.flatMap_cons]
    constructor
    · rintro ⟨_, ⟨valid, rfl⟩, all, rfl⟩
      exact ⟨⟨valid, all⟩, List.append_assoc _ _ _⟩
    · rintro ⟨⟨valid, all⟩, rfl⟩
      exact ⟨_, ⟨valid, rfl⟩, all, (List.append_assoc _ _ _).symm⟩

/-- A history that the file format admits. -/
def Admissible (entries : List HistoryEntry) : Prop :=
  entries.length ≤ maxEntries ∧ ∀ entry ∈ entries, validateEntry entry = .ok ()

/-- The encoder succeeds exactly on admissible histories and writes their layout. -/
theorem encode_eq_ok (entries : List HistoryEntry) (bytes : Bytes) :
    encode entries = .ok bytes ↔ Admissible entries ∧ bytes = layout entries := by
  unfold encode Admissible
  by_cases fits : entries.length ≤ maxEntries
  · rw [if_neg (by omega), encodeLoop_eq_ok, layout, List.append_assoc]
    simp [fits]
  · rw [if_pos (by omega)]
    simp [fits]

/-- One entry is read back exactly from its spelling. -/
theorem recognises_decodeEntry :
    Reader.Recognises decodeEntry (fun entry bytes =>
      validateEntry entry = .ok () ∧ bytes = spelling entry) := by
  refine ((Reader.recognises_number _ 8).leading fun timestamp =>
    (recognises_textField _ _ _ (by decide)).leading fun keyId =>
    (recognises_textField _ _ _ (by decide)).leading fun keyName =>
    (Reader.recognises_byte _).tagged readPolicy_eq_ok fun usePolicy =>
    (Reader.recognises_byte _).tagged readOutcome_eq_ok fun outcome =>
    (Reader.recognises_lift (validateEntry _)).bind fun _ => Reader.recognises_pure _).congr ?_
  intro entry bytes
  constructor
  · rintro ⟨timestamp, fits, _, ⟨keyId, _, _, ⟨keyName, _, _, ⟨usePolicy, _, ⟨outcome, _,
      ⟨_, _, _, ⟨valid, rfl⟩, ⟨rfl, rfl⟩, rfl⟩, rfl⟩, rfl⟩, rfl⟩, rfl⟩, rfl⟩
    have stored : (UInt64.ofNat timestamp).toNat = timestamp := UInt64.toNat_ofNat_of_lt' fits
    exact ⟨valid, by simp [spelling, KeyId.asStr, stored]⟩
  · obtain ⟨timestamp, ⟨keyId⟩, keyName, usePolicy, outcome⟩ := entry
    rintro ⟨valid, rfl⟩
    obtain ⟨idFits, nameFits⟩ := bounded_of_valid _ valid
    exact ⟨timestamp.toNat, timestamp.toNat_lt, _, ⟨keyId, idFits, _, ⟨keyName, nameFits, _,
      ⟨usePolicy, _, ⟨outcome, [], ⟨(), [], [], ⟨by simpa using valid, rfl⟩, ⟨by simp, rfl⟩, rfl⟩, rfl⟩, rfl⟩,
      rfl⟩, rfl⟩, by simp [spelling, KeyId.asStr]⟩

/-- Magic value, count and entries together read exactly the layouts of admissible
histories. -/
theorem recognises_decodeEntries :
    Reader.Recognises decodeEntries (fun entries bytes => Admissible entries ∧ bytes = layout entries) := by
  refine (Reader.Recognises.marked ((Reader.recognises_number _ 4).leading fun count =>
    (Reader.recognises_require _ _).bind fun _ =>
    Reader.recognises_times recognises_decodeEntry count) _ _ magic).congr ?_
  intro entries bytes
  constructor
  · rintro ⟨_, ⟨count, _, _, ⟨_, _, _, ⟨bounded, rfl⟩, ⟨rfl, valid, rfl⟩, rfl⟩, rfl⟩, rfl⟩
    exact ⟨⟨of_decide_eq_true bounded, valid⟩, rfl⟩
  · rintro ⟨⟨bounded, valid⟩, rfl⟩
    have counted : entries.length < 256 ^ 4 := by
      simp only [maxEntries] at bounded
      omega
    exact ⟨_, ⟨entries.length, counted, _,
      ⟨(), [], _, ⟨decide_eq_true bounded, rfl⟩, ⟨rfl, valid, rfl⟩, rfl⟩, rfl⟩, rfl⟩

/-- Decoding accepts exactly the layouts of admissible histories. -/
theorem decode_layout (bytes : Bytes) (entries : List HistoryEntry) :
    decode bytes = .ok entries ↔ Admissible entries ∧ bytes = layout entries :=
  Reader.complete_eq_ok HistoryError.invalidData recognises_decodeEntries bytes entries

/-- Acceptance in the terms of the encoder. -/
theorem decode_encode (bytes : Bytes) (entries : List HistoryEntry) :
    decode bytes = .ok entries ↔ Admissible entries ∧ encode entries = .ok bytes := by
  rw [decode_layout, encode_eq_ok]
  constructor
  · rintro ⟨admissible, written⟩
    exact ⟨admissible, admissible, written⟩
  · rintro ⟨admissible, _, written⟩
    exact ⟨admissible, written⟩

/-- Decoding accepts exactly what encoding writes for the histories within both
limits. Consequently every such history is written and read back as itself, and an
accepted file is the only spelling of its entries. -/
theorem history_codec_exact :
    (∀ bytes entries, decode bytes = .ok entries ↔
      entries.length ≤ 200 ∧ (∀ entry ∈ entries, validateEntry entry = .ok ()) ∧ encode entries = .ok bytes) ∧
    (∀ entries, entries.length ≤ 200 → (∀ entry ∈ entries, validateEntry entry = .ok ()) →
      ∃ bytes, encode entries = .ok bytes ∧ decode bytes = .ok entries) ∧
    (∀ left right entries, decode left = .ok entries → decode right = .ok entries → left = right) := by
  have accepted (bytes : Bytes) (entries : List HistoryEntry) := decode_encode bytes entries
  refine ⟨?_, ?_, ?_⟩
  · intro bytes entries
    rw [accepted, Admissible, and_assoc]
    rfl
  · intro entries few valid
    have written : encode entries = .ok (layout entries) := (encode_eq_ok _ _).mpr ⟨⟨few, valid⟩, rfl⟩
    exact ⟨_, written, (accepted _ _).mpr ⟨⟨few, valid⟩, written⟩⟩
  · intro left right entries first second
    have same := ((accepted _ _).mp first).2.symm.trans ((accepted _ _).mp second).2
    exact Except.ok.inj same

/-! ## The file -/

variable (enumerate : List Name → List Name)

/-- The newest entries are what trimming leaves. -/
theorem trimmed_eq_rtake (entries : List HistoryEntry) : trimmed entries = entries.rtake maxEntries := by
  unfold trimmed List.rtake
  split
  · rfl
  · rw [Nat.sub_eq_zero_of_le (by omega), List.drop_zero]

/-- Trimming before an append does not change what trimming after it leaves. -/
theorem rtake_concat_rtake (entries : List HistoryEntry) (entry : HistoryEntry) :
    (entries.rtake maxEntries ++ [entry]).rtake maxEntries = (entries ++ [entry]).rtake maxEntries := by
  rw [maxEntries, List.rtake_concat_succ, List.rtake_concat_succ]
  simp only [List.rtake_eq_reverse_take_reverse, List.reverse_reverse, List.take_take]
  rfl

/-- No temporary name is the history file's name. -/
theorem temporaryName_ne_historyName (pid : UInt32) (attempt : Nat) :
    temporaryName pid attempt ≠ historyName := by
  intro same
  have heads := congrArg List.head? same
  have dot : utf8 ".history." = 46 :: utf8 "history." := by decide
  have letter : historyName.head? = some 104 := by decide
  simp only [temporaryName, dot, List.cons_append, List.head?_cons, letter] at heads
  cases heads

/-- The view shows the history: no file for the empty one, or a private regular
file that decodes to it. -/
def Keeps (view : Name → Option File) (entries : List HistoryEntry) : Prop :=
  match view historyName with
  | none => entries = []
  | some file => file.kind = .regular ∧ file.mode &&& 0o077 = 0 ∧ decode file.contents = .ok entries

/-- A history that is shown is admissible. -/
theorem admissible_of_keeps {view : Name → Option File} {entries : List HistoryEntry}
    (keeps : Keeps view entries) : Admissible entries := by
  unfold Keeps at keeps
  split at keeps
  · subst keeps
    exact ⟨Nat.zero_le _, nofun⟩
  · exact ((decode_layout _ _).mp keeps.2.2).1

/-- What a listing makes of the entry under the history's name. -/
def readFile : Option File → Except HistoryError (List HistoryEntry)
  | none => .ok []
  | some file =>
    if file.kind ≠ .regular then .error .invalidData
    else if file.mode &&& 0o077 ≠ 0 then .error .invalidData
    else decode file.contents

/-- Listing reads one entry and changes nothing. -/
theorem execute_list_stands (path : Name) {place : Place} {view : Name → Option File}
    (stands : Stands place view) :
    execute enumerate (list path) place = (readFile (view path), place) := by
  have found := lookup_of_stands stands path
  cases present : view path with
  | none =>
    rw [present, Option.elim_none] at found
    have kind : IoError.noSuchFile.kind = .notFound := rfl
    simp only [list, execute_bind, execute_observe, run_inspect, found, Except.map, listFound, kind,
      ↓reduceIte, execute_pure, readFile]
  | some file =>
    rw [present, Option.elim_some] at found
    simp only [list, execute_bind, execute_observe, run_inspect, found, Except.map, listFound, readFile]
    by_cases regular : file.kind = .regular
    · have readable : contentsOf file = .ok file.contents := by simp [contentsOf, regular]
      by_cases closed : file.mode &&& 0o077 = 0
      · simp only [regular, closed, ne_eq, not_true_eq_false, ↓reduceIte, execute_bind,
          execute_reporting, execute_demand, run_read, found, Except.bind, readable, Except.mapError,
          execute_lift]
      · simp only [regular, closed, ne_eq, not_true_eq_false, not_false_eq_true, ↓reduceIte,
          execute_throw]
    · simp only [regular, ne_eq, not_false_eq_true, ↓reduceIte, execute_throw]

/-- What is shown is what the entry reads as. -/
theorem keeps_iff (view : Name → Option File) (entries : List HistoryEntry) :
    Keeps view entries ↔ readFile (view historyName) = .ok entries := by
  unfold Keeps readFile
  cases view historyName with
  | none => simp [eq_comm]
  | some file =>
    by_cases regular : file.kind = .regular
    · by_cases closed : file.mode &&& 0o077 = 0
      · simp [regular, closed]
      · simp [regular, closed]
    · simp [regular]

/-- The newest entries after a valid append are admissible again. -/
theorem Admissible.append {entries : List HistoryEntry} {entry : HistoryEntry}
    (admissible : Admissible entries) (valid : validateEntry entry = .ok ()) :
    Admissible ((entries ++ [entry]).rtake maxEntries) := by
  refine ⟨by simp only [List.rtake, List.length_drop]; omega, fun other member => ?_⟩
  rcases List.mem_append.mp (List.mem_of_mem_drop member) with earlier | last
  · exact admissible.2 other earlier
  · rwa [List.mem_singleton.mp last]

/-- Listing reads the history that is shown and changes nothing. -/
theorem execute_list {place : Place} {view : Name → Option File} {entries : List HistoryEntry}
    (stands : Stands place view) (keeps : Keeps view entries) :
    execute enumerate (list historyName) place = (.ok entries, place) := by
  rw [execute_list_stands enumerate historyName stands, (keeps_iff view entries).mp keeps]

/-- Listing never changes the directory. -/
theorem execute_list_place (path : Name) (place : Place) :
    (execute enumerate (list path) place).2 = place := by
  cases place with
  | absent => rw [execute_list_stands enumerate path (.inr ⟨rfl, rfl⟩)]
  | occupied kind => rfl
  | directory mode files => rw [execute_list_stands enumerate path (.inl ⟨mode, files, rfl, fun _ => rfl⟩)]

/-- Listing a file that does not decode fails. -/
theorem execute_list_undecodable {path : Name} {place : Place} {view : Name → Option File} {file : File}
    {error : HistoryError} (stands : Stands place view) (present : view path = some file)
    (undecodable : decode file.contents = .error error) :
    ∃ failure, (execute enumerate (list path) place).1 = .error failure := by
  rw [execute_list_stands enumerate path stands, present, readFile, undecodable]
  split
  · exact ⟨_, rfl⟩
  · split
    · exact ⟨_, rfl⟩
    · exact ⟨_, rfl⟩

/-- An invalid entry, or a history that cannot be read, makes the append fail and
leaves the directory as it was. -/
theorem execute_append_refused (pid : UInt32) (path : Name) (entry : HistoryEntry) (place : Place)
    (refused : validateEntry entry ≠ .ok () ∨ ∃ error, (execute enumerate (list path) place).1 = .error error) :
    ∃ error, execute enumerate (append pid path entry) place = (.error error, place) := by
  cases valid : validateEntry entry with
  | error error =>
    exact ⟨error, by simp only [append, execute_bind, execute_lift, valid]⟩
  | ok _ =>
    obtain ⟨error, unreadable⟩ := refused.resolve_left (not_not.mpr valid)
    have reads : execute enumerate (list path) place = (.error error, place) :=
      Prod.ext unreadable (execute_list_place enumerate path place)
    exact ⟨error, by simp only [append, execute_bind, execute_lift, valid, reads]⟩

/-- The directory shows the history and still has a free temporary name for the
process. -/
def Ready (pid : UInt32) (place : Place) (entries : List HistoryEntry) : Prop :=
  ∃ view, Stands place view ∧ Keeps view entries ∧ ∃ name ∈ temporaryNames pid, view name = none

/-- The place shows the old history or the new one. -/
def Passing (old new : List HistoryEntry) (place : Place) : Prop :=
  ∃ view, Stands place view ∧ (Keeps view old ∨ Keeps view new)

/-- The written file shows the history that was encoded. -/
theorem keeps_of_written {view : Name → Option File} {entries : List HistoryEntry}
    (admissible : Admissible entries) (written : view historyName = some ⟨.regular, 0o600, layout entries⟩) :
    Keeps view entries := by
  have owned : 0o600 &&& 0o077 = 0 := by decide
  unfold Keeps
  rw [written]
  exact ⟨rfl, owned, (decode_layout _ _).mpr ⟨admissible, rfl⟩⟩

/-- A view that agrees at the history file shows the same history. -/
theorem Keeps.congr {view other : Name → Option File} {entries : List HistoryEntry}
    (keeps : Keeps view entries) (same : other historyName = view historyName) : Keeps other entries := by
  unfold Keeps at *
  rwa [same]

/-- A shown history can be replaced: it is no directory. -/
theorem Keeps.replaceable {view : Name → Option File} {entries : List HistoryEntry}
    (keeps : Keeps view entries) (file : File) (present : view historyName = some file) :
    file.kind ≠ .directory := by
  unfold Keeps at keeps
  rw [present] at keeps
  rw [keeps.1]
  nofun

/-- Saving an admissible history replaces the old one; every place on the way
shows one of the two. -/
theorem execute_save (pid : UInt32) {old new : List HistoryEntry} (admissible : Admissible new)
    {place : Place} (ready : Ready pid place old) :
    ∃ reached, execute enumerate (save pid historyName new) place = (.ok (), reached) ∧
      Ready pid reached new ∧
      Throughout enumerate (save pid historyName new) place (Passing old new) := by
  obtain ⟨view, stands, keeps, free⟩ := ready
  have encodes : encode new = .ok (layout new) := (encode_eq_ok _ _).mpr ⟨admissible, rfl⟩
  obtain ⟨prepared, ensures, preparedShows⟩ := execute_ensureDirectory enumerate 0o700
    "history directory is not a directory" place view stands
  obtain ⟨temporary, candidate, unused, created, creates, createdShows⟩ :=
    execute_createFirst enumerate 0o600 _ prepared view preparedShows free
  have elsewhere (name : Name) (member : name ∈ temporaryNames pid) : name ≠ historyName := by
    obtain ⟨attempt, _, rfl⟩ := List.mem_map.mp member
    exact temporaryName_ne_historyName pid attempt
  have apart := elsewhere temporary candidate
  have added (name : Name) (member : name ∈ temporaryNames pid) (file : Option File) :
      Keeps (Function.update view name file) old :=
    keeps.congr (Function.update_of_ne (elsewhere name member).symm _ _)
  obtain ⟨published, publishes, publishedShows, passes⟩ := execute_publish enumerate temporary historyName
    (layout new) 0o600 apart createdShows (Function.update_self _ _ _) (added temporary candidate _).replaceable
  have creating : execute enumerate (createTemporaryFile pid) prepared = (.ok temporary, created) := by
    simp only [createTemporaryFile, execute_bind, creates, execute_lift, allocated]
  refine ⟨published, ?_, ?_, ?_⟩
  · simp only [save, execute_bind, execute_lift, encodes, execute_reporting, ensurePrivateDirectory,
      ensures, Except.mapError, creating, publishes]
  · rw [Function.update_idem, ← unused, Function.update_eq_self] at publishedShows
    refine ⟨_, .inl publishedShows, keeps_of_written admissible (Function.update_self _ _ _), ?_⟩
    exact ⟨temporary, candidate, by rw [Function.update_of_ne apart, unused]⟩
  · have ensuring : execute enumerate (reporting HistoryError.io ensurePrivateDirectory) place =
        (.ok (), prepared) := by
      simp only [execute_reporting, ensurePrivateDirectory, ensures, Except.mapError]
    have allocating : execute enumerate (reporting HistoryError.io (createTemporaryFile pid)) prepared =
        (.ok temporary, created) := by
      simp only [execute_reporting, creating, Except.mapError]
    have encoding : execute enumerate (liftM (encode new) : Task HistoryError Bytes) prepared =
        (.ok (layout new), prepared) := by
      rw [execute_lift, encodes]
    have preparing : Throughout enumerate ensurePrivateDirectory place (Passing old new) :=
      fun visited passed => ⟨view, throughout_ensureDirectory 0o700 _ stands visited passed, .inl keeps⟩
    have trying : Throughout enumerate (createFirst 0o600 (temporaryNames pid)) prepared
        (Passing old new) := by
      intro visited passed
      rcases throughout_createFirst 0o600 _ preparedShows visited passed with shown | ⟨name, member, shown⟩
      · exact ⟨view, .inl shown, .inl keeps⟩
      · exact ⟨_, .inl shown, .inl (added name member _)⟩
    have publishing : Throughout enumerate (publish temporary historyName (layout new)) created
        (Passing old new) := by
      intro visited passed
      obtain ⟨shown, showing, _, target⟩ := passes visited passed
      refine ⟨shown, showing, ?_⟩
      rcases target with same | complete
      · exact .inl ((added temporary candidate _).congr same)
      · exact .inr (keeps_of_written admissible complete)
    refine Throughout.bind (preparing.reporting _) ensuring ?_
    refine Throughout.bind (throughout_lift _ ⟨view, .inl preparedShows, .inl keeps⟩) encoding ?_
    refine Throughout.bind (Throughout.reporting _ ?_) allocating (publishing.reporting _)
    exact Throughout.bind trying creates
      (throughout_pure _ ⟨_, .inl createdShows, .inl (added temporary candidate _)⟩)

/-- Listing passes through no other place. -/
theorem throughout_list (path : Name) (place : Place) {property : Place → Prop} (holds : property place) :
    Throughout enumerate (list path) place property := by
  refine Throughout.bind (throughout_observe (throughout_call _ holds holds))
    (execute_observe enumerate (inspect path) place) ?_
  rw [run_inspect]
  cases (place.lookup path).map (fun file => (file.kind, file.mode)) with
  | error error =>
    simp only [listFound]
    split
    · exact throughout_pure _ holds
    · exact throughout_throw _ holds
  | ok metadata =>
    simp only [listFound]
    split
    · exact throughout_throw _ holds
    split
    · exact throughout_throw _ holds
    refine Throughout.sequence (Throughout.reporting _ (throughout_demand (throughout_call _ holds holds))) ?_
    intro bytes reached runs
    have unchanged : place = reached := congrArg Prod.snd runs
    exact throughout_lift _ (unchanged ▸ holds)

/-- Appending a valid entry keeps the newest entries, and passes only through
places that show the history before or after it. -/
theorem execute_append (pid : UInt32) (entry : HistoryEntry) (valid : validateEntry entry = .ok ())
    {place : Place} {entries : List HistoryEntry} (ready : Ready pid place entries) :
    ∃ reached, execute enumerate (append pid historyName entry) place = (.ok (), reached) ∧
      Ready pid reached ((entries ++ [entry]).rtake maxEntries) ∧
      Throughout enumerate (append pid historyName entry) place
        (Passing entries ((entries ++ [entry]).rtake maxEntries)) := by
  obtain ⟨view, stands, keeps, _⟩ := id ready
  have lists := execute_list enumerate stands keeps
  have admissible := (admissible_of_keeps keeps).append valid
  obtain ⟨reached, saves, after, passes⟩ := execute_save enumerate pid admissible ready
  rw [← trimmed_eq_rtake] at saves passes
  refine ⟨reached, ?_, after, ?_⟩
  · simp only [append, execute_bind, execute_lift, valid, lists, saves]
  · have start : Passing entries (trimmed (entries ++ [entry])) place := ⟨view, stands, .inl keeps⟩
    rw [← trimmed_eq_rtake]
    refine Throughout.bind (throughout_lift _ start) (by rw [execute_lift, valid]) ?_
    exact Throughout.bind (throughout_list enumerate historyName place start) lists passes

/-! ## Threads -/

/-- One call of `record_history` with history enabled: a record that a listing of
the key store returned, with the time and the outcome of its use. -/
structure SigningEvent where
  key : RecordCodec.StoredKey
  timestampSeconds : UInt64
  outcome : HistoryOutcome
  listed : ∃ enumerate place keys,
    (execute enumerate KeyStore.list place).1 = .ok keys ∧ key ∈ keys

/-- The entry of a signing event. -/
def SigningEvent.entry (event : SigningEvent) : HistoryEntry :=
  historyEntry event.timestampSeconds event.key event.outcome

/-- What a thread does between taking and releasing the history mutex. -/
def recordHistory (pid : UInt32) (event : SigningEvent) :
    Program Operation Answer (Except HistoryError Unit) :=
  (append pid historyName event.entry).run

/-- The two modules' text limits agree: a valid record gives a valid entry. -/
theorem validateEntry_of_validateRecord (key : RecordCodec.StoredKey)
    (valid : RecordCodec.validateRecord key = .ok ()) (timestampSeconds : UInt64)
    (outcome : HistoryOutcome) : validateEntry (historyEntry timestampSeconds key outcome) = .ok () := by
  unfold RecordCodec.validateRecord at valid
  split at valid
  · cases valid
  · rename_i accepted
    simp only [Bool.or_eq_true, decide_eq_true_eq, not_or] at accepted
    obtain ⟨⟨⟨⟨⟨⟨⟨⟨⟨⟨⟨⟨id, name⟩, idFits⟩, nameFits⟩, _⟩, _⟩, _⟩, _⟩, _⟩, _⟩, _⟩, _⟩, _⟩ := accepted
    have sameLimit : maxTextLen = RecordCodec.maxTextLen := rfl
    simp only [validateEntry, historyEntry, id, name, sameLimit, idFits, nameFits, decide_false,
      Bool.or_false, Bool.false_eq_true, ↓reduceIte]

/-- The entry of a signing event is valid. -/
theorem SigningEvent.valid (event : SigningEvent) : validateEntry event.entry = .ok () := by
  obtain ⟨key, timestampSeconds, outcome, order, place, keys, lists, member⟩ := event
  exact validateEntry_of_validateRecord key (KeyStore.valid_of_listed order lists key member) _ _

/-- Recording events one after another keeps the newest entries. -/
theorem ready_serial (pid : UInt32) {place : Place} {entries : List HistoryEntry}
    (ready : Ready pid place entries) (events : List SigningEvent) :
    Ready pid (Mutex.serial (perform enumerate) (recordHistory pid) place events)
      ((entries ++ events.map SigningEvent.entry).rtake maxEntries) := by
  induction events using List.reverseRecOn with
  | nil =>
    obtain ⟨view, _, keeps, _⟩ := id ready
    have short := (admissible_of_keeps keeps).1
    simp only [List.map_nil, List.append_nil, List.rtake, Nat.sub_eq_zero_of_le short, List.drop_zero]
    exact ready
  | append_singleton earlier event inductionHypothesis =>
    obtain ⟨reached, runs, after, _⟩ := execute_append enumerate pid event.entry event.valid inductionHypothesis
    have stops : Mutex.serial (perform enumerate) (recordHistory pid) place (earlier ++ [event]) = reached := by
      rw [Mutex.serial, List.foldl_append]
      exact congrArg Prod.snd runs
    rw [stops, List.map_append, ← List.append_assoc, List.map_singleton, ← rtake_concat_rtake]
    exact after

/-- The listing is the newest entries of the first history followed by the
published events. With the mutex free all threads that took it have published;
with the mutex held the holder may not have done so yet. -/
def ShowsNewest (entries : List HistoryEntry)
    (state : Mutex.State Operation Answer Place SigningEvent (Except HistoryError Unit)) : Prop :=
  ∃ published, execute enumerate (list historyName) state.shared =
      (.ok ((entries ++ published.map SigningEvent.entry).rtake maxEntries), state.shared) ∧
    match state.holder with
    | none => published = state.entered
    | some (event, _) => published = state.entered ∨ published ++ [event] = state.entered

/-- Every state of every run shows the newest events. The run is sequential in the
order of entry, and inside an append only the two histories are visible. -/
theorem showsNewest_of_run (pid : UInt32) {place : Place} {entries : List HistoryEntry}
    (ready : Ready pid place entries) {actions : List (Mutex.Action SigningEvent)}
    {state : Mutex.State Operation Answer Place SigningEvent (Except HistoryError Unit)}
    (reached : Transition.run (Mutex.step (perform enumerate) (recordHistory pid)) (.initial place) actions =
      some state) : ShowsNewest enumerate entries state := by
  have serialised := Mutex.serialised_run place reached
  obtain ⟨shared, waiting, holder, entered⟩ := state
  cases holder with
  | none =>
    have same : shared = Mutex.serial (perform enumerate) (recordHistory pid) place entered := serialised
    obtain ⟨view, stands, keeps, _⟩ := ready_serial enumerate pid ready entered
    rw [← same] at stands
    exact ⟨entered, execute_list enumerate stands keeps, rfl⟩
  | some current =>
    obtain ⟨event, remaining⟩ := current
    obtain ⟨earlier, order, _, passes⟩ := serialised
    obtain ⟨_, _, _, throughout⟩ := execute_append enumerate pid event.entry event.valid
      (ready_serial enumerate pid ready earlier)
    obtain ⟨view, stands, old | new⟩ :=
      throughout shared (passes shared (Program.start_mem_trail _ _ _))
    · exact ⟨earlier, execute_list enumerate stands old, .inr order.symm⟩
    · refine ⟨entered, ?_, .inl rfl⟩
      rw [rtake_concat_rtake] at new
      rw [show entered = earlier ++ [event] from order, List.map_append, ← List.append_assoc]
      exact execute_list enumerate stands new

/-- The history is the newest signing events. From a history file that is absent
or decodes to `entries`, any number of threads may record events in any order:
after every step the listing is the newest entries of `entries` followed by the
events in the order in which their threads took the history mutex, each arrived
event being recorded once. Every entry built from a listed record is valid, and an
append of an invalid entry or onto a file that does not decode fails and changes
nothing. -/
theorem history_is_newest_events (pid : UInt32) {place : Place} {entries : List HistoryEntry}
    (ready : Ready pid place entries) :
    (∀ actions state,
      Transition.run (Mutex.step (perform enumerate) (recordHistory pid)) (.initial place) actions =
        some state →
      (Mutex.arrivals actions).Perm (state.waiting ++ state.entered) ∧ ShowsNewest enumerate entries state) ∧
    (∀ order store keys, (execute order KeyStore.list store).1 = .ok keys →
      ∀ key ∈ keys, ∀ timestampSeconds outcome,
        validateEntry (historyEntry timestampSeconds key outcome) = .ok ()) ∧
    (∀ path entry reached, (validateEntry entry ≠ .ok () ∨ ∃ view file error,
        Stands reached view ∧ view path = some file ∧ decode file.contents = .error error) →
      ∃ error, execute enumerate (append pid path entry) reached = (.error error, reached)) := by
  refine ⟨fun actions state reached => ⟨?_, ?_⟩, ?_, ?_⟩
  · simpa [Mutex.State.initial] using Mutex.arrivals_perm reached
  · exact showsNewest_of_run enumerate pid ready reached
  · intro order store keys lists key member timestampSeconds outcome
    exact validateEntry_of_validateRecord key (KeyStore.valid_of_listed order lists key member) _ _
  · intro path entry reached refused
    apply execute_append_refused
    refine refused.imp_right ?_
    rintro ⟨view, file, error, stands, present, undecodable⟩
    exact execute_list_undecodable enumerate stands present undecodable

namespace Sample

def entry : HistoryEntry := ⟨5, ⟨"k"⟩, "work", .noPin, .succeeded⟩

/-- A directory with a history of one entry. -/
def files : Files := (∅ : Files).insert historyName ⟨.regular, 0o600, layout [entry]⟩

end Sample

/-- A history with an entry is a ready start, and every listing shows the entry before the
events until newer ones displace it. -/
theorem recorded_history_goes_on :
    Ready 7 (.directory 0o700 Sample.files) [Sample.entry] ∧ ∀ actions state,
      Transition.run (Mutex.step (perform fun names => names) (recordHistory 7))
          (.initial (.directory 0o700 Sample.files)) actions = some state →
        ShowsNewest (fun names => names) [Sample.entry] state := by
  have keeps : Keeps Sample.files.lookup [Sample.entry] := by
    have shown : Sample.files.lookup historyName = some ⟨.regular, 0o600, layout [Sample.entry]⟩ :=
      AList.lookup_insert _
    rw [Keeps, shown]
    exact ⟨rfl, by decide, by decide +kernel⟩
  have unused : Sample.files.lookup (temporaryName 7 0) = none :=
    AList.lookup_insert_ne (show temporaryName 7 0 ≠ historyName by decide)
  have ready : Ready 7 (.directory 0o700 Sample.files) [Sample.entry] :=
    ⟨_, .inl ⟨_, _, rfl, fun _ => rfl⟩, keeps, _, List.mem_map.mpr ⟨0, by decide, rfl⟩, unused⟩
  exact ⟨ready, fun actions state reached =>
    ((history_is_newest_events (fun names => names) 7 ready).1 actions state reached).2⟩

end Keyvisor.History
