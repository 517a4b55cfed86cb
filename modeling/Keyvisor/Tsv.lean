import Keyvisor.Foundation.Table
import Keyvisor.History

/-!
# Tab-separated output

Executable translation of `list_keys` and `run_history` of `keyvisor-cli/src/main.rs`
with `parse_format`, `policy_name`, `outcome_name`, `fingerprint` and `escape_tsv`. Both
commands print a schema line, a header line and one line for each record.

A sheet is what the two outputs have in common: its fields are the identifier as it is
stored, the escaped name and fields that need no escape. A reader that cuts lines and
fields and undoes the escapes recovers every identifier and every name exactly when no
identifier contains a tab, a line feed or a backslash: names are always recovered, and
identifiers are printed as they are.
-/

namespace Keyvisor.Tsv

open Foundation Foundation.Text Foundation.Directory RecordCodec History

/-- The crates that print a fingerprint. Their encoder writes nothing but the base64
alphabet. -/
structure Crates where
  sha256 : Bytes → Bytes
  base64 : Bytes → Bytes
  alphabet : ∀ bytes, ∀ byte ∈ base64 bytes,
    byte = 43 ∨ (47 ≤ byte ∧ byte ≤ 57) ∨ (65 ≤ byte ∧ byte ≤ 90) ∨ (97 ≤ byte ∧ byte ≤ 122)

/-- `OutputFormat`. -/
inductive OutputFormat where
  | human
  | tsv
  deriving DecidableEq, Repr

/-- `parse_format`. -/
def parseFormat (arguments : List Bytes) : Except String OutputFormat :=
  match arguments with
  | [] => .ok .human
  | [flag, value] =>
    if flag = utf8 "--format" ∧ value = utf8 "human" then .ok .human
    else if flag = utf8 "--format" ∧ value = utf8 "tsv" then .ok .tsv
    else .error "format must be \x60human\x60 or \x60tsv\x60"
  | _ => .error "format must be \x60human\x60 or \x60tsv\x60"

/-- `policy_name`. -/
def policyName : KeyUsePolicy → Bytes
  | .noPin => utf8 "none"
  | .tpmPin => utf8 "pin"

/-- `outcome_name`. -/
def outcomeName : HistoryOutcome → Bytes
  | .succeeded => utf8 "succeeded"
  | .failed => utf8 "failed"

/-- `fingerprint`. -/
def fingerprint (crates : Crates) (publicKey : Bytes) : Bytes :=
  utf8 "SHA256:" ++ crates.base64 (crates.sha256 publicKey)

/-- `str::replace` of one ASCII character. -/
def replace (character : UInt8) (replacement value : Bytes) : Bytes :=
  value.flatMap fun byte => if byte = character then replacement else [byte]

/-- A backslash, a tab, a carriage return and a line feed become a backslash and a letter,
one character after the other. -/
def escapeTsv (value : Bytes) : Bytes :=
  replace 10 [92, 110] (replace 13 [92, 114] (replace 9 [92, 116] (replace 92 [92, 92] value)))

/-- Lines as `println!` ends them. -/
def printed (lines : List Bytes) : Bytes := Table.written 10 lines

/-- Fields with one tab between them. -/
def tabbed (fields : List Bytes) : Bytes := Table.row 9 fields

/-- Fields with two spaces between them. -/
def spaced (fields : List Bytes) : Bytes := [32, 32].intercalate fields

/-- What `list_keys` prints. -/
def printKeys (crates : Crates) (format : OutputFormat) (keys : List StoredKey) : Bytes :=
  match format with
  | .tsv =>
    printed (utf8 "KEYVISOR-KEYS-1" :: utf8 "id\tname\tauthorization\tfingerprint" :: keys.map fun key =>
      tabbed [utf8 key.summary.id.asStr, escapeTsv (utf8 key.summary.name), policyName key.summary.usePolicy,
        fingerprint crates key.summary.publicKey])
  | .human =>
    if keys.isEmpty then printed [utf8 "No keys."]
    else printed (keys.map fun key =>
      spaced [utf8 key.summary.id.asStr, utf8 key.summary.name, policyName key.summary.usePolicy,
        fingerprint crates key.summary.publicKey])

/-- What `run_history` prints. -/
def printHistory (format : OutputFormat) (entries : List HistoryEntry) : Bytes :=
  match format with
  | .tsv =>
    printed (utf8 "KEYVISOR-HISTORY-1" :: utf8 "timestamp\tkey-id\tkey-name\tauthorization\toutcome" ::
      entries.map fun entry =>
        tabbed [decimal entry.timestampSeconds.toNat, utf8 entry.keyId.asStr, escapeTsv (utf8 entry.keyName),
          policyName entry.usePolicy, outcomeName entry.outcome])
  | .human =>
    if entries.isEmpty then printed [utf8 "No signing history."]
    else printed (entries.map fun entry =>
      spaced [decimal entry.timestampSeconds.toNat, utf8 entry.keyId.asStr, utf8 entry.keyName,
        policyName entry.usePolicy, outcomeName entry.outcome])

/-- The output of `list_keys`, or its diagnostic. -/
def listKeys (crates : Crates) (arguments : List Bytes) : Task String Bytes := do
  let format ← parseFormat arguments
  let keys ← reporting (fun error : StoreError => "cannot list keys: " ++ error.message) KeyStore.list
  return printKeys crates format keys

/-- The output of `run_history`, or its diagnostic. -/
def runHistory (arguments : List Bytes) : Task String Bytes := do
  let format ← parseFormat arguments
  let entries ← reporting HistoryError.message (History.list historyName)
  return printHistory format entries

/-! ## Escapes -/

/-- The escape of one byte. -/
def escapeByte (byte : UInt8) : Bytes :=
  if byte = 92 then [92, 92]
  else if byte = 9 then [92, 116]
  else if byte = 13 then [92, 114]
  else if byte = 10 then [92, 110]
  else [byte]

/-- The byte that a letter after a backslash stands for. -/
def unescapeByte (letter : UInt8) : Option UInt8 :=
  if letter = 92 then some 92
  else if letter = 116 then some 9
  else if letter = 114 then some 13
  else if letter = 110 then some 10
  else none

/-- A reader of escapes. It knows no other letters, and a backslash needs one. -/
def unescape : Bytes → Option Bytes
  | [] => some []
  | [byte] => if byte = 92 then none else some [byte]
  | byte :: letter :: rest =>
    if byte = 92 then
      (unescapeByte letter).bind fun plain => (unescape rest).map fun value => plain :: value
    else (unescape (letter :: rest)).map fun value => byte :: value

/-- The backslash is replaced first, so the replacements do not interfere and each byte
is escaped on its own. -/
theorem escapeTsv_eq (value : Bytes) : escapeTsv value = value.flatMap escapeByte := by
  have each : ∀ byte, escapeTsv [byte] = escapeByte byte := forall_byte (by decide +kernel)
  induction value with
  | nil => rfl
  | cons byte rest inductionHypothesis =>
    have split : escapeTsv (byte :: rest) = escapeTsv [byte] ++ escapeTsv rest := by
      simp only [escapeTsv, replace, List.flatMap_cons, List.flatMap_nil, List.append_nil, List.flatMap_append]
    rw [split, each, inductionHypothesis, List.flatMap_cons]

/-- An escaped value is free of the bytes that separate fields and end lines. -/
theorem plain_escapeTsv (value : Bytes) : 9 ∉ escapeTsv value ∧ 10 ∉ escapeTsv value := by
  have each : ∀ byte, 9 ∉ escapeByte byte ∧ 10 ∉ escapeByte byte := forall_byte (by decide +kernel)
  simp only [escapeTsv_eq, List.mem_flatMap, not_exists, not_and]
  exact ⟨fun byte _ => (each byte).1, fun byte _ => (each byte).2⟩

/-- A byte other than the backslash stands for itself. -/
theorem unescape_cons {byte : UInt8} (other : byte ≠ 92) (rest : Bytes) :
    unescape (byte :: rest) = (unescape rest).map fun value => byte :: value := by
  cases rest with
  | nil => simp [unescape, other]
  | cons letter later => simp [unescape, other]

/-- The escape of a byte is read as the byte. -/
theorem unescape_escapeByte (byte : UInt8) (rest : Bytes) :
    unescape (escapeByte byte ++ rest) = (unescape rest).map fun value => byte :: value := by
  unfold escapeByte
  split
  · rename_i same
    subst same
    rfl
  · rename_i other
    split
    · rename_i same
      subst same
      rfl
    · split
      · rename_i same
        subst same
        rfl
      · split
        · rename_i same
          subst same
          rfl
        · exact unescape_cons other rest

/-- Reading undoes escaping. -/
theorem unescape_escapeTsv (value : Bytes) : unescape (escapeTsv value) = some value := by
  rw [escapeTsv_eq]
  induction value with
  | nil => rfl
  | cons byte rest inductionHypothesis =>
    rw [List.flatMap_cons, unescape_escapeByte, inductionHypothesis]
    rfl

/-- A value is never longer than its spelling, and shorter where a backslash occurs. -/
theorem length_of_unescape {spelling value : Bytes} (read : unescape spelling = some value) :
    value.length ≤ spelling.length ∧ (92 ∈ spelling → value.length < spelling.length) := by
  fun_induction unescape spelling generalizing value with
  | case1 =>
    cases read
    simp
  | case2 => cases read
  | case3 byte other =>
    cases read
    simp [Ne.symm other]
  | case4 letter rest inductionHypothesis =>
    obtain ⟨plain, _, rested⟩ := Option.bind_eq_some_iff.mp read
    obtain ⟨tail, tailRead, rfl⟩ := Option.map_eq_some_iff.mp rested
    have shorter := (inductionHypothesis tailRead).1
    simp only [List.length_cons]
    omega
  | case5 byte letter rest other inductionHypothesis =>
    obtain ⟨tail, tailRead, rfl⟩ := Option.map_eq_some_iff.mp read
    obtain ⟨bounded, shorter⟩ := inductionHypothesis tailRead
    simp only [List.length_cons, List.mem_cons, Ne.symm other, false_or] at bounded shorter ⊢
    exact ⟨by omega, fun later => Nat.succ_lt_succ (shorter later)⟩

/-- Exactly the values without a backslash are their own spellings. -/
theorem unescape_self_iff (value : Bytes) : unescape value = some value ↔ 92 ∉ value := by
  constructor
  · intro read present
    exact absurd ((length_of_unescape read).2 present) (Nat.lt_irrefl _)
  · intro absent
    induction value with
    | nil => rfl
    | cons byte rest inductionHypothesis =>
      obtain ⟨other, later⟩ := not_or.mp (List.mem_cons.not.mp absent)
      rw [unescape_cons (Ne.symm other), inductionHypothesis later]
      rfl

/-! ## Sheets -/

/-- What both outputs have in common: two lines before the records, and for each record
the same number of fields, among them the identifier as it is stored and, next to it, the
escaped name. The other fields contain no separator. -/
structure Sheet (Record : Type) where
  schema : Bytes
  header : Bytes
  width : Nat
  column : Nat
  fields : Record → List Bytes
  identifier : Record → Bytes
  name : Record → Bytes
  headed : 10 ∉ schema ∧ 10 ∉ header
  full : ∀ record, (fields record).length = width
  filled : 0 < width
  identified : ∀ record, (fields record)[column]? = some (identifier record)
  named : ∀ record, (fields record)[column + 1]? = some (escapeTsv (name record))
  plain : ∀ record, ∀ field ∈ fields record, field = identifier record ∨ (9 ∉ field ∧ 10 ∉ field)

/-- The text of a sheet. -/
def Sheet.text {Record : Type} (sheet : Sheet Record) (records : List Record) : Bytes :=
  printed (sheet.schema :: sheet.header :: records.map fun record => tabbed (sheet.fields record))

/-- The two values that a reader finds in a line of the given width. The name is unescaped;
`reading` says what becomes of the identifier. -/
def readLine (reading : Bytes → Option Bytes) (width column : Nat) (line : Bytes) : Option (Bytes × Bytes) :=
  if (line.splitOn 9).length = width then do
    let identifier ← (line.splitOn 9)[column]?
    let name ← (line.splitOn 9)[column + 1]?
    let identifier ← reading identifier
    let name ← unescape name
    return (identifier, name)
  else none

/-- After the two lines before them there is one line for each record, and every line has
all fields and is read as the identifier and the name of its record. -/
def ReadsBack (reading : Bytes → Option Bytes) (width column : Nat) (output : Bytes)
    (records : List (Bytes × Bytes)) : Prop :=
  ((Table.rows 10 output).drop 2).map (readLine reading width column) = records.map some

instance (reading : Bytes → Option Bytes) (width column : Nat) (output : Bytes)
    (records : List (Bytes × Bytes)) : Decidable (ReadsBack reading width column output records) :=
  inferInstanceAs (Decidable (_ = _))

section

variable {Record : Type} (sheet : Sheet Record)

/-- A line that is cut where it was joined is read as the record exactly when its
identifier is read as itself. -/
theorem Sheet.readLine_iff (reading : Bytes → Option Bytes) (record : Record) :
    readLine reading sheet.width sheet.column (tabbed (sheet.fields record)) =
        some (sheet.identifier record, sheet.name record) ↔
      9 ∉ sheet.identifier record ∧ reading (sheet.identifier record) = some (sheet.identifier record) := by
  have some : sheet.fields record ≠ [] := by
    intro none
    have full := sheet.full record
    rw [none, List.length_nil] at full
    exact absurd full (Nat.ne_of_lt sheet.filled)
  have whole : ((tabbed (sheet.fields record)).splitOn 9).length = sheet.width ↔
      ∀ field ∈ sheet.fields record, 9 ∉ field := sheet.full record ▸ Table.length_fields_iff some
  have listed := List.mem_of_getElem? (sheet.identified record)
  have separate : (∀ field ∈ sheet.fields record, 9 ∉ field) ↔ 9 ∉ sheet.identifier record := by
    constructor
    · exact fun all => all _ listed
    · intro absent field member
      rcases sheet.plain record field member with rfl | ⟨separated, _⟩
      · exact absent
      · exact separated
  unfold readLine
  by_cases plain : 9 ∈ sheet.identifier record
  · have short : ((tabbed (sheet.fields record)).splitOn 9).length ≠ sheet.width := fun full =>
      separate.mp (whole.mp full) plain
    simp [short, plain]
  · have absent := separate.mpr plain
    have cut : (tabbed (sheet.fields record)).splitOn 9 = sheet.fields record := Table.fields_row some absent
    rw [cut, if_pos (sheet.full record), sheet.identified, sheet.named]
    cases read : reading (sheet.identifier record) with
    | none => simp [read, plain]
    | some identifier => simp [read, plain, unescape_escapeTsv]

/-- The line of a record is unbroken exactly when its identifier is. -/
theorem Sheet.unbroken_iff (record : Record) :
    10 ∉ tabbed (sheet.fields record) ↔ 10 ∉ sheet.identifier record := by
  rw [tabbed, Table.mem_row_iff (by decide)]
  constructor
  · intro unbroken within
    exact unbroken ⟨_, List.mem_of_getElem? (sheet.identified record), within⟩
  · rintro unbroken ⟨field, member, within⟩
    rcases sheet.plain record field member with rfl | ⟨_, whole⟩
    · exact unbroken within
    · exact whole within

/-- A sheet is read back exactly when no identifier contains a tab or a line feed and every
identifier is read as itself. -/
theorem Sheet.readsBack_iff (reading : Bytes → Option Bytes) (records : List Record) :
    ReadsBack reading sheet.width sheet.column (sheet.text records)
        (records.map fun record => (sheet.identifier record, sheet.name record)) ↔
      ∀ record ∈ records, 9 ∉ sheet.identifier record ∧ 10 ∉ sheet.identifier record ∧
        reading (sheet.identifier record) = some (sheet.identifier record) := by
  have headings := sheet.headed
  have unbroken (whole : ∀ record ∈ records, 10 ∉ sheet.identifier record) :
      Table.rows 10 (sheet.text records) =
        sheet.schema :: sheet.header :: records.map fun record => tabbed (sheet.fields record) := by
    apply Table.rows_written
    intro line member
    rcases List.mem_cons.mp member with rfl | member
    · exact headings.1
    · rcases List.mem_cons.mp member with rfl | member
      · exact headings.2
      · obtain ⟨record, listed, rfl⟩ := List.mem_map.mp member
        exact (sheet.unbroken_iff record).mpr (whole record listed)
  have read (whole : ∀ record ∈ records, 10 ∉ sheet.identifier record) :
      ReadsBack reading sheet.width sheet.column (sheet.text records)
          (records.map fun record => (sheet.identifier record, sheet.name record)) ↔
        ∀ record ∈ records, 9 ∉ sheet.identifier record ∧
          reading (sheet.identifier record) = some (sheet.identifier record) := by
    rw [ReadsBack, unbroken whole, List.drop_succ_cons, List.drop_succ_cons, List.drop_zero, List.map_map,
      List.map_map, List.map_inj_left]
    exact forall₂_congr fun record _ => sheet.readLine_iff reading record
  constructor
  · intro back
    have counted := congrArg List.length back
    let lines := sheet.schema :: sheet.header :: records.map fun record => tabbed (sheet.fields record)
    have total : (Table.rows 10 (sheet.text records)).length =
        lines.length + lines.flatten.count 10 :=
      (Table.length_rows _ _).trans (Table.count_written _ _)
    have written : lines.length = records.length + 2 := by simp [lines]
    have ended : (Table.rows 10 (sheet.text records)).length = lines.length := by
      simp only [List.length_map, List.length_drop] at counted
      omega
    have whole (record : Record) (listed : record ∈ records) : 10 ∉ sheet.identifier record := by
      refine (sheet.unbroken_iff record).mp (Table.unbroken_of_length ended _ ?_)
      exact List.mem_cons_of_mem _ (List.mem_cons_of_mem _ (List.mem_map_of_mem listed))
    intro record listed
    obtain ⟨separate, reads⟩ := (read whole).mp back record listed
    exact ⟨separate, whole record listed, reads⟩
  · intro plain
    exact (read fun record listed => (plain record listed).2.1).mpr fun record listed =>
      ⟨(plain record listed).1, (plain record listed).2.2⟩

/-- Two sheets of records whose identifiers contain neither a tab nor a line feed have the
same text only if their records have the same identifiers and names. -/
theorem Sheet.text_injective {left right : List Record}
    (plain : ∀ record ∈ left ++ right, 9 ∉ sheet.identifier record ∧ 10 ∉ sheet.identifier record)
    (same : sheet.text left = sheet.text right) :
    left.map (fun record => (sheet.identifier record, sheet.name record)) =
      right.map fun record => (sheet.identifier record, sheet.name record) := by
  have first : ReadsBack some sheet.width sheet.column (sheet.text left) _ :=
    (sheet.readsBack_iff some left).mpr fun record listed =>
      have whole := plain record (List.mem_append_left _ listed)
      ⟨whole.1, whole.2, rfl⟩
  have second : ReadsBack some sheet.width sheet.column (sheet.text right) _ :=
    (sheet.readsBack_iff some right).mpr fun record listed =>
      have whole := plain record (List.mem_append_right _ listed)
      ⟨whole.1, whole.2, rfl⟩
  rw [ReadsBack, same] at first
  exact List.map_injective_iff.mpr (Option.some_injective _) (first.symm.trans second)

end

/-! ## The two outputs -/

/-- The columns of `list_keys`. -/
def keySheet (crates : Crates) : Sheet StoredKey where
  schema := utf8 "KEYVISOR-KEYS-1"
  header := utf8 "id\tname\tauthorization\tfingerprint"
  width := 4
  column := 0
  fields key := [utf8 key.summary.id.asStr, escapeTsv (utf8 key.summary.name), policyName key.summary.usePolicy,
    fingerprint crates key.summary.publicKey]
  identifier key := utf8 key.summary.id.asStr
  name key := utf8 key.summary.name
  headed := by decide +kernel
  full _ := rfl
  filled := by decide
  identified _ := rfl
  named _ := rfl
  plain key := by
    have policies : ∀ policy, 9 ∉ policyName policy ∧ 10 ∉ policyName policy := by
      intro policy
      cases policy <;> decide +kernel
    have prefixed : 9 ∉ utf8 "SHA256:" ∧ 10 ∉ utf8 "SHA256:" := by decide +kernel
    have encoded : 9 ∉ crates.base64 (crates.sha256 key.summary.publicKey) ∧
        10 ∉ crates.base64 (crates.sha256 key.summary.publicKey) :=
      ⟨fun member => absurd (crates.alphabet _ _ member) (by decide),
        fun member => absurd (crates.alphabet _ _ member) (by decide)⟩
    simp only [List.forall_mem_cons, fingerprint, List.mem_append, not_or]
    exact ⟨.inl trivial, .inr (plain_escapeTsv _), .inr (policies _),
      .inr ⟨⟨prefixed.1, encoded.1⟩, prefixed.2, encoded.2⟩, nofun⟩

/-- The columns of `run_history`. -/
def historySheet : Sheet HistoryEntry where
  schema := utf8 "KEYVISOR-HISTORY-1"
  header := utf8 "timestamp\tkey-id\tkey-name\tauthorization\toutcome"
  width := 5
  column := 1
  fields entry := [decimal entry.timestampSeconds.toNat, utf8 entry.keyId.asStr, escapeTsv (utf8 entry.keyName),
    policyName entry.usePolicy, outcomeName entry.outcome]
  identifier entry := utf8 entry.keyId.asStr
  name entry := utf8 entry.keyName
  headed := by decide +kernel
  full _ := rfl
  filled := by decide
  identified _ := rfl
  named _ := rfl
  plain entry := by
    have policies : ∀ policy, 9 ∉ policyName policy ∧ 10 ∉ policyName policy := by
      intro policy
      cases policy <;> decide +kernel
    have outcomes : ∀ outcome, 9 ∉ outcomeName outcome ∧ 10 ∉ outcomeName outcome := by
      intro outcome
      cases outcome <;> decide +kernel
    have digits : 9 ∉ decimal entry.timestampSeconds.toNat ∧ 10 ∉ decimal entry.timestampSeconds.toNat :=
      ⟨fun member => absurd (decimal_digit member).1 (by decide),
        fun member => absurd (decimal_digit member).1 (by decide)⟩
    simp only [List.forall_mem_cons]
    exact ⟨.inr digits, .inl trivial, .inr (plain_escapeTsv _), .inr (policies _), .inr (outcomes _), nofun⟩

/-- The machine-readable keys are the text of their sheet. -/
theorem printKeys_tsv (crates : Crates) (keys : List StoredKey) :
    printKeys crates .tsv keys = (keySheet crates).text keys := rfl

/-- The machine-readable history is the text of its sheet. -/
theorem printHistory_tsv (entries : List HistoryEntry) :
    printHistory .tsv entries = historySheet.text entries := rfl

/-- The arguments that ask for this output. -/
def tsvArguments : List Bytes := [utf8 "--format", utf8 "tsv"]

/-- Those arguments ask for the machine-readable format. -/
theorem parseFormat_tsvArguments : parseFormat tsvArguments = .ok .tsv := by decide +kernel

/-- The command prints the sheet of the records that the key store lists. -/
theorem execute_listKeys (crates : Crates) (enumerate : List Name → List Name) {place : Place}
    {keys : List StoredKey} (listed : (execute enumerate KeyStore.list place).1 = .ok keys) :
    (execute enumerate (listKeys crates tsvArguments) place).1 = .ok (printKeys crates .tsv keys) := by
  cases runs : execute enumerate KeyStore.list place with
  | mk result reached =>
    rw [runs] at listed
    obtain rfl : result = .ok keys := listed
    simp only [listKeys, execute_bind, execute_lift, parseFormat_tsvArguments, execute_reporting, runs,
      Except.mapError, execute_pure]

/-- The command prints the sheet of the entries that the history lists. -/
theorem execute_runHistory (enumerate : List Name → List Name) {place : Place} {entries : List HistoryEntry}
    (listed : (execute enumerate (History.list historyName) place).1 = .ok entries) :
    (execute enumerate (runHistory tsvArguments) place).1 = .ok (printHistory .tsv entries) := by
  cases runs : execute enumerate (History.list historyName) place with
  | mk result reached =>
    rw [runs] at listed
    obtain rfl : result = .ok entries := listed
    simp only [runHistory, execute_bind, execute_lift, parseFormat_tsvArguments, execute_reporting, runs,
      Except.mapError, execute_pure]

/-- The identifier and the name of a record. -/
def keyNames (key : StoredKey) : Bytes × Bytes := (utf8 key.summary.id.asStr, utf8 key.summary.name)

/-- The identifier and the name of the key of an entry. -/
def entryNames (entry : HistoryEntry) : Bytes × Bytes := (utf8 entry.keyId.asStr, utf8 entry.keyName)

/-- The text contains neither a tab nor a line feed. -/
def Unbroken (text : Bytes) : Prop := 9 ∉ text ∧ 10 ∉ text

/-- Names are always recovered from the output; identifiers are printed without escapes. So
the output of any list of records has one line for each record with all fields, and
splitting and unescaping them recovers every identifier and name, exactly when no
identifier contains a tab, a line feed or a backslash. For a reader that takes the
identifier as printed and unescapes only the name, backslashes are no obstacle. Under
either reading, two lists of records with unbroken identifiers that print the same text
agree in all identifiers and names. -/
theorem tsv_reads_back_iff (crates : Crates) :
    (∀ keys : List StoredKey,
      (ReadsBack unescape 4 0 (printKeys crates .tsv keys) (keys.map keyNames) ↔
        ∀ key ∈ keys, Unbroken (utf8 key.summary.id.asStr) ∧ 92 ∉ utf8 key.summary.id.asStr) ∧
      (ReadsBack some 4 0 (printKeys crates .tsv keys) (keys.map keyNames) ↔
        ∀ key ∈ keys, Unbroken (utf8 key.summary.id.asStr))) ∧
    (∀ entries : List HistoryEntry,
      (ReadsBack unescape 5 1 (printHistory .tsv entries) (entries.map entryNames) ↔
        ∀ entry ∈ entries, Unbroken (utf8 entry.keyId.asStr) ∧ 92 ∉ utf8 entry.keyId.asStr) ∧
      (ReadsBack some 5 1 (printHistory .tsv entries) (entries.map entryNames) ↔
        ∀ entry ∈ entries, Unbroken (utf8 entry.keyId.asStr))) ∧
    (∀ left right : List StoredKey, (∀ key ∈ left ++ right, Unbroken (utf8 key.summary.id.asStr)) →
      printKeys crates .tsv left = printKeys crates .tsv right → left.map keyNames = right.map keyNames) ∧
    ∀ left right : List HistoryEntry, (∀ entry ∈ left ++ right, Unbroken (utf8 entry.keyId.asStr)) →
      printHistory .tsv left = printHistory .tsv right → left.map entryNames = right.map entryNames := by
  have unescaped {Record : Type} (sheet : Sheet Record) (records : List Record) :
      ReadsBack unescape sheet.width sheet.column (sheet.text records)
          (records.map fun record => (sheet.identifier record, sheet.name record)) ↔
        ∀ record ∈ records, Unbroken (sheet.identifier record) ∧ 92 ∉ sheet.identifier record := by
    rw [sheet.readsBack_iff]
    exact forall₂_congr fun record _ => by rw [unescape_self_iff, Unbroken, and_assoc]
  have raw {Record : Type} (sheet : Sheet Record) (records : List Record) :
      ReadsBack some sheet.width sheet.column (sheet.text records)
          (records.map fun record => (sheet.identifier record, sheet.name record)) ↔
        ∀ record ∈ records, Unbroken (sheet.identifier record) := by
    rw [sheet.readsBack_iff]
    exact forall₂_congr fun record _ => by simp only [Unbroken, and_true]
  exact ⟨fun keys => ⟨unescaped (keySheet crates) keys, raw (keySheet crates) keys⟩,
    fun entries => ⟨unescaped historySheet entries, raw historySheet entries⟩,
    fun _ _ plain same => (keySheet crates).text_injective plain same,
    fun _ _ plain same => historySheet.text_injective plain same⟩

namespace Sample

/-- The digest of the sample public key and its base64 spelling. -/
def crates : Crates where
  sha256 _ := [202, 53, 135, 88, 246, 210, 126, 108, 244, 82, 114, 147, 121, 119, 167, 72, 253, 136, 57, 29,
    182, 121, 206, 218, 125, 199, 191, 31, 0, 94, 232, 121]
  base64 _ := utf8 "yjWHWPbSfmz0UnKTeXenSP2IOR22ec7afce/HwBe6Hk"
  alphabet _ := by decide +kernel

/-- A valid record with the given identifier. -/
def key (id : String) : StoredKey := ⟨⟨⟨id⟩, "work", .ecdsaNistP256, .noPin, [7]⟩, ⟨[5], [6], [4], .noPin⟩⟩

/-- A record whose name needs every escape. -/
def escaped : StoredKey := ⟨⟨⟨"k"⟩, "at\\work\t\n", .ecdsaNistP256, .noPin, [7]⟩, ⟨[5], [6], [4], .noPin⟩⟩

/-- The files of a store with these records. -/
def files (ids : List String) : Files :=
  ids.foldr (fun id stored => stored.insert (KeyStore.pathFor ⟨id⟩) (KeyStore.recordFile (key id))) ∅

/-- A store with these records. -/
def store (ids : List String) : Place := .directory 0o700 (files ids)

/-- An identifier that spells the line of one record and the beginning of another. -/
def joined : String := "x\twork\tnone\tSHA256:yjWHWPbSfmz0UnKTeXenSP2IOR22ec7afce/HwBe6Hk\ny"

end Sample

/-- A valid record whose name needs every escape is read back, next to a plain one. -/
theorem escaped_names_are_read_back :
    validateRecord Sample.escaped = .ok () ∧
      ReadsBack unescape 4 0 (printKeys Sample.crates .tsv [Sample.escaped, Sample.key "m"])
        [(utf8 "k", utf8 "at\\work\t\n"), (utf8 "m", utf8 "work")] := by
  have plain : ∀ key ∈ [Sample.escaped, Sample.key "m"],
      Unbroken (utf8 key.summary.id.asStr) ∧ 92 ∉ utf8 key.summary.id.asStr := by
    simp only [List.forall_mem_cons, Unbroken]
    decide +kernel
  exact ⟨by decide +kernel, ((tsv_reads_back_iff Sample.crates).1 _).1.mpr plain⟩

/-- The key store lists a valid record whose identifier contains a tab, and the command
prints a line with five fields for it. It also lists a record whose identifier contains a
line feed, and then prints the same text as for two records with other identifiers. -/
theorem tabbed_identifier_is_not_read_back :
    ((execute id KeyStore.list (Sample.store ["a\tb"])).1 = .ok [Sample.key "a\tb"] ∧
      (execute id (listKeys Sample.crates tsvArguments) (Sample.store ["a\tb"])).1 =
        .ok (printKeys Sample.crates .tsv [Sample.key "a\tb"]) ∧
      (Table.rows 10 (printKeys Sample.crates .tsv [Sample.key "a\tb"])).map
        (fun line => (line.splitOn 9).length) = [1, 4, 5] ∧
      ¬ ReadsBack unescape 4 0 (printKeys Sample.crates .tsv [Sample.key "a\tb"])
        ([Sample.key "a\tb"].map keyNames)) ∧
    (execute id KeyStore.list (Sample.store [Sample.joined])).1 = .ok [Sample.key Sample.joined] ∧
      (execute id KeyStore.list (Sample.store ["x", "y"])).1 = .ok [Sample.key "x", Sample.key "y"] ∧
      printKeys Sample.crates .tsv [Sample.key Sample.joined] =
        printKeys Sample.crates .tsv [Sample.key "x", Sample.key "y"] := by
  have lists (ids : List String) (keys : List StoredKey)
      (reads : ((id (Sample.files ids).keys).filter KeyStore.isRecordName).mapM
        (KeyStore.readEntry (Sample.files ids).lookup) = .ok keys)
      (sorted : keys.Pairwise fun left right => KeyStore.idLe left right) :
      (execute id KeyStore.list (Sample.store ids)).1 = .ok keys := by
    rw [Sample.store, KeyStore.execute_list_directory, reads]
    exact congrArg Except.ok (List.mergeSort_of_pairwise sorted)
  have tabbed := lists ["a\tb"] [Sample.key "a\tb"] (by decide +kernel) (List.pairwise_singleton _ _)
  have split := lists ["x", "y"] [Sample.key "x", Sample.key "y"] (by decide +kernel) (by decide +kernel)
  have whole := lists [Sample.joined] [Sample.key Sample.joined] (by decide +kernel)
    (List.pairwise_singleton _ _)
  exact ⟨⟨tabbed, execute_listKeys _ _ tabbed, by decide +kernel, by decide +kernel⟩, whole, split,
    by decide +kernel⟩

end Keyvisor.Tsv
