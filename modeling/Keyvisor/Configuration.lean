import Keyvisor.Foundation.Faults
import Keyvisor.Foundation.Text

/-!
# The configuration

Executable translation of `keyvisor-agent/src/config.rs`. A configuration is two
settings; its file is a magic line and one line for each setting, in either order,
and is replaced as a whole.

A setting is a kind and a value within the accepted range, so the setter, the parser
and the writer are all compared with one spelling of settings. The parser accepts
exactly the magic line with both settings spelled once, the setter changes the one
setting that it spells or nothing, and what the writer leaves in the file is read back
as the configuration that was saved.
-/

namespace Keyvisor.Configuration

open Foundation Foundation.Text Foundation.Directory

/-- `"KEYVISOR-CONFIG-1"`. -/
def magic : Bytes := utf8 "KEYVISOR-CONFIG-1"

def defaultAuthorizationTimeoutSeconds : Nat := 120

def minAuthorizationTimeoutSeconds : Nat := 10

def maxAuthorizationTimeoutSeconds : Nat := 120

/-- The name of the setting `authorization_timeout_seconds`. -/
def timeoutName : Bytes := utf8 "authorization-timeout-seconds"

/-- The name of the setting `history_enabled`. -/
def historyName : Bytes := utf8 "history-enabled"

/-- The non-secret settings. The timeout is a `u64`. -/
structure Config where
  authorizationTimeoutSeconds : Nat := defaultAuthorizationTimeoutSeconds
  historyEnabled : Bool := true
  deriving DecidableEq, Repr

/-- `ConfigError`. -/
inductive ConfigError where
  | io (error : IoError)
  | invalidData
  | invalidValue
  deriving DecidableEq, Repr

/-- The text of a configuration error. -/
def ConfigError.message : ConfigError → String
  | io error => "configuration I/O failed: " ++ error.text
  | invalidData => "configuration data is invalid"
  | invalidValue => "configuration setting or value is invalid"

/-- A truth value as it is printed. -/
def spellBool : Bool → Bytes
  | true => utf8 "true"
  | false => utf8 "false"

/-- `Config::get`. -/
def Config.get (config : Config) (name : Bytes) : Option Bytes :=
  if name = timeoutName then some (decimal config.authorizationTimeoutSeconds)
  else if name = historyName then some (spellBool config.historyEnabled)
  else none

/-- The result of the call and the configuration that it leaves behind. -/
def Config.set (config : Config) (name value : Bytes) : Except ConfigError Unit × Config :=
  if name = timeoutName then
    match parseUnsigned (2 ^ 64) value with
    | none => (.error .invalidValue, config)
    | some seconds =>
      if minAuthorizationTimeoutSeconds ≤ seconds ∧ seconds ≤ maxAuthorizationTimeoutSeconds then
        (.ok (), { config with authorizationTimeoutSeconds := seconds })
      else (.error .invalidValue, config)
  else if name = historyName then
    if value = utf8 "true" then (.ok (), { config with historyEnabled := true })
    else if value = utf8 "false" then (.ok (), { config with historyEnabled := false })
    else (.error .invalidValue, config)
  else (.error .invalidValue, config)

/-- The state of the loop of `parse`. -/
structure Progress where
  config : Config
  timeoutSeen : Bool
  historySeen : Bool

/-- A setting may be named once. -/
def note (progress : Progress) (name : Bytes) : Except ConfigError Progress :=
  if name = timeoutName ∧ progress.timeoutSeen = false then .ok { progress with timeoutSeen := true }
  else if name = historyName ∧ progress.historySeen = false then .ok { progress with historySeen := true }
  else .error .invalidData

/-- The configuration after one setting of the file. -/
def assign (progress : Progress) (name value : Bytes) : Except ConfigError Progress :=
  match progress.config.set name value with
  | (.ok _, config) => .ok { progress with config }
  | (.error _, _) => .error .invalidData

/-- The loop body of `parse`. -/
def parseLine (progress : Progress) (line : Bytes) : Except ConfigError Progress :=
  match splitOnce 61 line with
  | none => .error .invalidData
  | some (name, value) => do
    let progress ← note progress name
    assign progress name value

/-- The lines after the first one, from the defaults. -/
def parseSettings (rest : List Bytes) : Except ConfigError Config := do
  let progress ← rest.foldlM parseLine ⟨{}, false, false⟩
  if progress.timeoutSeen && progress.historySeen then return progress.config else throw .invalidData

/-- `parse`: the magic line, and then each setting exactly once. -/
def parse (contents : Bytes) : Except ConfigError Config :=
  match lines contents with
  | [] => .error .invalidData
  | first :: rest => if first = magic then parseSettings rest else .error .invalidData

/-- One setting as a line of the file. -/
def settingLine (name value : Bytes) : Bytes := name ++ 61 :: value

/-- The text that `save` writes. -/
def text (config : Config) : Bytes :=
  magic ++ 10 :: (settingLine timeoutName (decimal config.authorizationTimeoutSeconds) ++
    10 :: (settingLine historyName (spellBool config.historyEnabled) ++ [10]))

/-- The file name that `default_config_path` ends in. -/
def configName : Name := utf8 "config"

/-- The temporary name of one attempt. -/
def temporaryName (pid : UInt32) (attempt : Nat) : Name :=
  utf8 ".config." ++ decimal pid.toNat ++ utf8 "." ++ decimal attempt ++ utf8 ".tmp"

/-- The candidates of `create_temporary_file`. -/
def temporaryNames (pid : UInt32) : List Name := (List.range 100).map (temporaryName pid)

/-- The temporary file found by the attempt loop, or its exhaustion. -/
def allocated (temporary : Option Name) : Except ConfigError Name :=
  match temporary with
  | some name => .ok name
  | none => .error (.io ⟨.alreadyExists, "cannot allocate a unique configuration temporary file"⟩)

/-- `create_temporary_file`. -/
def createTemporaryFile (pid : UInt32) : Task ConfigError Name := do
  let temporary ← reporting .io (createFirst 0o600 (temporaryNames pid))
  allocated temporary

/-- The rest of `ensure_private_directory` after the metadata of the path is known. -/
def requirePrivate : Except IoError (FileKind × Nat) → Task ConfigError Unit
  | .ok metadata =>
    if metadata.1 ≠ .directory ∨ metadata.2 &&& 0o077 ≠ 0 then throw .invalidData else pure ()
  | .error error =>
    if error.kind = .notFound then do
      reporting .io (demand (createDirectory 0o777))
      reporting .io (demand (protectDirectory 0o700))
    else throw (.io error)

/-- `ensure_private_directory` of the configuration. -/
def ensurePrivateDirectory : Task ConfigError Unit := do
  let metadata ← observe inspectPath
  requirePrivate metadata

/-- The lines go through one open handle in order, and a failing write leaves leading
bytes of them, so they are written together. The path has a parent. -/
def save (pid : UInt32) (path : Name) (config : Config) : Task ConfigError Unit := do
  ensurePrivateDirectory
  let temporary ← createTemporaryFile pid
  reporting .io (publish temporary path (text config))

/-- `fs::read_to_string` after the bytes are read. -/
def readToString (bytes : Bytes) : Except ConfigError Bytes :=
  if (fromUtf8 bytes).isSome then .ok bytes
  else .error (.io ⟨.other, "stream did not contain valid UTF-8"⟩)

/-- The rest of `load` after the metadata of the file is known. -/
def loadFound (path : Name) : Except IoError (FileKind × Nat) → Task ConfigError Config
  | .ok metadata =>
    if metadata.1 ≠ .regular ∨ metadata.2 &&& 0o077 ≠ 0 then throw .invalidData
    else do
      let bytes ← reporting .io (demand (read path))
      let contents ← readToString bytes
      parse contents
  | .error error => if error.kind = .notFound then pure {} else throw (.io error)

/-- `ConfigStore::load`. -/
def load (path : Name) : Task ConfigError Config := do
  let metadata ← observe (inspect path)
  loadFound path metadata

/-! ## Settings -/

/-- One setting with its value. -/
inductive Setting where
  | timeout (seconds : Nat)
  | history (enabled : Bool)

/-- The name of the setting. -/
def Setting.name : Setting → Bytes
  | timeout _ => timeoutName
  | history _ => historyName

/-- The text is a spelling of the setting's value, and the value is accepted. -/
def Setting.SpelledBy : Setting → Bytes → Prop
  | timeout seconds, value => parseUnsigned (2 ^ 64) value = some seconds ∧ 10 ≤ seconds ∧ seconds ≤ 120
  | history enabled, value => value = spellBool enabled

/-- The configuration with this setting. -/
def Setting.apply : Setting → Config → Config
  | timeout seconds, config => { config with authorizationTimeoutSeconds := seconds }
  | history enabled, config => { config with historyEnabled := enabled }

/-- The setting has been named before. -/
def Setting.seen : Setting → Progress → Bool
  | timeout _, progress => progress.timeoutSeen
  | history _, progress => progress.historySeen

/-- The setting is named now. -/
def Setting.mark : Setting → Progress → Progress
  | timeout _, progress => { progress with timeoutSeen := true }
  | history _, progress => { progress with historySeen := true }

/-- The state of the loop after a line with this setting. -/
def Setting.record (setting : Setting) (progress : Progress) : Progress :=
  { setting.mark progress with config := setting.apply progress.config }

/-- The two settings have different names. -/
theorem historyName_ne_timeoutName : historyName ≠ timeoutName := by decide +kernel

/-- Both names are free of the separator and of the bytes that end lines. -/
theorem names_plain : ∀ name ∈ [timeoutName, historyName], 61 ∉ name ∧ 10 ∉ name ∧ 13 ∉ name := by
  decide +kernel

/-- The two truth values have different spellings. -/
theorem spellBool_true_ne_false : spellBool true ≠ spellBool false := by decide +kernel

/-- A successful call has applied a setting that the name and the value spell, and
every setting that they spell is applied. -/
theorem set_eq_ok (config after : Config) (name value : Bytes) :
    config.set name value = (.ok (), after) ↔
      ∃ setting : Setting, name = setting.name ∧ setting.SpelledBy value ∧ after = setting.apply config := by
  constructor
  · intro succeeds
    unfold Config.set at succeeds
    split at succeeds
    · rename_i named
      split at succeeds
      · cases succeeds
      · rename_i seconds spelled
        split at succeeds
        · rename_i within
          cases succeeds
          exact ⟨.timeout seconds, named, ⟨spelled, within⟩, rfl⟩
        · cases succeeds
    · split at succeeds
      · rename_i named
        split at succeeds
        · rename_i spelled
          cases succeeds
          exact ⟨.history true, named, spelled, rfl⟩
        · split at succeeds
          · rename_i spelled
            cases succeeds
            exact ⟨.history false, named, spelled, rfl⟩
          · cases succeeds
      · cases succeeds
  · rintro ⟨setting, rfl, spelled, rfl⟩
    cases setting with
    | timeout seconds =>
      simp only [Config.set, Setting.name, ↓reduceIte, spelled.1]
      exact if_pos spelled.2
    | history enabled =>
      obtain rfl : value = spellBool enabled := spelled
      have different : utf8 "false" ≠ utf8 "true" := spellBool_true_ne_false.symm
      cases enabled with
      | true =>
        simp only [Config.set, Setting.name, historyName_ne_timeoutName, ↓reduceIte, spellBool,
          Setting.apply]
      | false =>
        simp only [Config.set, Setting.name, historyName_ne_timeoutName, ↓reduceIte, spellBool, different,
          Setting.apply]

/-- A call that fails leaves the configuration as it was. -/
theorem set_error (config : Config) (name value : Bytes) (error : ConfigError)
    (fails : (config.set name value).1 = .error error) : (config.set name value).2 = config := by
  unfold Config.set at fails ⊢
  grind

/-! ## The parser -/

/-- A setting's name is noted unless it was named before. -/
theorem note_name (progress : Progress) (setting : Setting) :
    note progress setting.name =
      if setting.seen progress then .error .invalidData else .ok (setting.mark progress) := by
  cases setting with
  | timeout seconds =>
    have other : timeoutName ≠ historyName := historyName_ne_timeoutName.symm
    cases seen : progress.timeoutSeen <;> simp [note, Setting.name, Setting.seen, Setting.mark, seen, other]
  | history enabled =>
    cases seen : progress.historySeen <;>
      simp [note, Setting.name, Setting.seen, Setting.mark, seen, historyName_ne_timeoutName]

/-- A setting of the file is assigned exactly when its name and its value spell it. -/
theorem assign_eq_ok (progress after : Progress) (name value : Bytes) :
    assign progress name value = .ok after ↔ ∃ setting : Setting, name = setting.name ∧
      setting.SpelledBy value ∧ after = { progress with config := setting.apply progress.config } := by
  constructor
  · intro assigned
    unfold assign at assigned
    split at assigned
    · rename_i config succeeds
      cases assigned
      obtain ⟨setting, named, spelled, rfl⟩ := (set_eq_ok _ _ _ _).mp succeeds
      exact ⟨setting, named, spelled, rfl⟩
    · cases assigned
  · rintro ⟨setting, named, spelled, rfl⟩
    have succeeds := (set_eq_ok progress.config _ name value).mpr ⟨setting, named, spelled, rfl⟩
    simp only [assign, succeeds]

/-- A line is accepted exactly when it spells a setting that was not named before. -/
theorem parseLine_eq_ok (progress after : Progress) (line : Bytes) :
    parseLine progress line = .ok after ↔ ∃ (setting : Setting) (value : Bytes),
      line = settingLine setting.name value ∧ setting.SpelledBy value ∧ setting.seen progress = false ∧
        after = setting.record progress := by
  have unseparated (setting : Setting) : 61 ∉ setting.name := by
    cases setting with
    | timeout seconds => exact (names_plain timeoutName (by simp)).1
    | history enabled => exact (names_plain historyName (by simp)).1
  constructor
  · intro accepted
    unfold parseLine at accepted
    split at accepted
    · cases accepted
    · rename_i name value parts
      obtain ⟨rfl, _⟩ := splitOnce_eq_some.mp parts
      obtain ⟨noted, notes, assigned⟩ := (bind_eq_ok _ _ _).mp accepted
      obtain ⟨setting, rfl, spelled, rfl⟩ := (assign_eq_ok _ _ _ _).mp assigned
      rw [note_name] at notes
      split at notes
      · cases notes
      · rename_i unseen
        cases notes
        refine ⟨setting, value, rfl, spelled, by simpa using unseen, ?_⟩
        cases setting <;> rfl
  · rintro ⟨setting, value, rfl, spelled, unseen, rfl⟩
    have parts : splitOnce 61 (settingLine setting.name value) = some (setting.name, value) :=
      splitOnce_append (unseparated setting) value
    have notes : note progress setting.name = .ok (setting.mark progress) := by
      rw [note_name, unseen]
      rfl
    simp only [parseLine, parts]
    refine (bind_eq_ok _ _ _).mpr ⟨_, notes, (assign_eq_ok _ _ _ _).mpr ⟨setting, rfl, spelled, ?_⟩⟩
    cases setting <;> rfl

/-- The number of settings that have been named. -/
def Progress.count (progress : Progress) : Nat := progress.timeoutSeen.toNat + progress.historySeen.toNat

/-- Every accepted line names one more setting. -/
theorem count_of_parseLine {progress after : Progress} {line : Bytes}
    (accepted : parseLine progress line = .ok after) : after.count = progress.count + 1 := by
  obtain ⟨setting, _, _, _, unseen, rfl⟩ := (parseLine_eq_ok _ _ _).mp accepted
  cases setting with
  | timeout seconds =>
    obtain unseen : progress.timeoutSeen = false := unseen
    simp only [Progress.count, Setting.record, Setting.mark, unseen, Bool.toNat_true, Bool.toNat_false]
    omega
  | history enabled =>
    obtain unseen : progress.historySeen = false := unseen
    simp only [Progress.count, Setting.record, Setting.mark, unseen, Bool.toNat_true, Bool.toNat_false]

/-- The loop names as many settings as it has read lines. -/
theorem count_of_foldlM (rest : List Bytes) {progress after : Progress}
    (accepted : rest.foldlM parseLine progress = .ok after) : after.count = progress.count + rest.length := by
  induction rest generalizing progress with
  | nil =>
    cases accepted
    rfl
  | cons line later inductionHypothesis =>
    rw [List.foldlM_cons] at accepted
    obtain ⟨middle, first, others⟩ := (bind_eq_ok _ _ _).mp accepted
    rw [inductionHypothesis others, count_of_parseLine first, List.length_cons]
    omega

/-- Both settings are spelled, one on each of two lines, and the configuration holds
their values. -/
def Declares (rest : List Bytes) (config : Config) : Prop :=
  ∃ value spelled : Bytes,
    (rest = [settingLine timeoutName value, settingLine historyName spelled] ∨
      rest = [settingLine historyName spelled, settingLine timeoutName value]) ∧
    parseUnsigned (2 ^ 64) value = some config.authorizationTimeoutSeconds ∧
    10 ≤ config.authorizationTimeoutSeconds ∧ config.authorizationTimeoutSeconds ≤ 120 ∧
    spelled = spellBool config.historyEnabled

/-- The lines after the first one are accepted exactly when they are two, with one
setting each: a line more would name a setting again, a line fewer leaves one unnamed. -/
theorem parseSettings_eq_ok (rest : List Bytes) (config : Config) :
    parseSettings rest = .ok config ↔ Declares rest config := by
  constructor
  · intro accepted
    obtain ⟨progress, loops, finished⟩ := (bind_eq_ok _ _ _).mp accepted
    split at finished
    · rename_i seen
      cases finished
      obtain ⟨timeoutSeen, historySeen⟩ := (Bool.and_eq_true _ _).mp seen
      have counted := count_of_foldlM rest loops
      have both : progress.count = 2 := by rw [Progress.count, timeoutSeen, historySeen]; rfl
      have none : (⟨{}, false, false⟩ : Progress).count = 0 := rfl
      obtain ⟨first, second, rfl⟩ := List.length_eq_two.mp (by omega : rest.length = 2)
      rw [List.foldlM_cons] at loops
      obtain ⟨middle, firstAccepted, loops⟩ := (bind_eq_ok _ _ _).mp loops
      rw [List.foldlM_cons] at loops
      obtain ⟨last, secondAccepted, ends⟩ := (bind_eq_ok _ _ _).mp loops
      cases ends
      obtain ⟨earlier, value, rfl, spelled, _, rfl⟩ := (parseLine_eq_ok _ _ _).mp firstAccepted
      obtain ⟨later, other, rfl, otherSpelled, unseen, rfl⟩ := (parseLine_eq_ok _ _ _).mp secondAccepted
      cases earlier with
      | timeout seconds =>
        cases later with
        | timeout _ => cases unseen
        | history enabled => exact ⟨value, other, .inl rfl, spelled.1, spelled.2.1, spelled.2.2, otherSpelled⟩
      | history enabled =>
        cases later with
        | timeout seconds =>
          exact ⟨other, value, .inr rfl, otherSpelled.1, otherSpelled.2.1, otherSpelled.2.2, spelled⟩
        | history _ => cases unseen
    · cases finished
  · rintro ⟨value, spelled, order, number, low, high, rfl⟩
    let timeout : Setting := .timeout config.authorizationTimeoutSeconds
    let history : Setting := .history config.historyEnabled
    have accepts (setting : Setting) (progress : Progress) (value : Bytes) (spelled : setting.SpelledBy value)
        (unseen : setting.seen progress = false) :
        parseLine progress (settingLine setting.name value) = .ok (setting.record progress) :=
      (parseLine_eq_ok _ _ _).mpr ⟨setting, value, rfl, spelled, unseen, rfl⟩
    rcases order with rfl | rfl
    · have first := accepts timeout ⟨{}, false, false⟩ value ⟨number, low, high⟩ rfl
      have second := accepts history (timeout.record ⟨{}, false, false⟩) _ rfl rfl
      refine (bind_eq_ok _ _ _).mpr ⟨history.record (timeout.record ⟨{}, false, false⟩), ?_, rfl⟩
      exact (bind_eq_ok _ _ _).mpr ⟨_, first, (bind_eq_ok _ _ _).mpr ⟨_, second, rfl⟩⟩
    · have first := accepts history ⟨{}, false, false⟩ _ rfl rfl
      have second := accepts timeout (history.record ⟨{}, false, false⟩) value ⟨number, low, high⟩ rfl
      refine (bind_eq_ok _ _ _).mpr ⟨timeout.record (history.record ⟨{}, false, false⟩), ?_, rfl⟩
      exact (bind_eq_ok _ _ _).mpr ⟨_, first, (bind_eq_ok _ _ _).mpr ⟨_, second, rfl⟩⟩

/-- A text is accepted exactly when its lines are the magic line and both settings. -/
theorem parse_eq_ok (contents : Bytes) (config : Config) :
    parse contents = .ok config ↔ ∃ rest, lines contents = magic :: rest ∧ Declares rest config := by
  unfold parse
  cases found : lines contents with
  | nil => simp
  | cons first rest =>
    by_cases marked : first = magic
    · simp [marked, parseSettings_eq_ok]
    · simp [marked]

/-! ## The writer -/

/-- The timeout is one that the setter accepts. -/
def Config.InRange (config : Config) : Prop :=
  10 ≤ config.authorizationTimeoutSeconds ∧ config.authorizationTimeoutSeconds ≤ 120

/-- A setting's line is free of the bytes that end lines. -/
theorem settingLine_plain {name value : Bytes} (named : name ∈ [timeoutName, historyName])
    (plain : 10 ∉ value ∧ 13 ∉ value) : 10 ∉ settingLine name value ∧ 13 ∉ settingLine name value := by
  obtain ⟨_, unbroken, unreturned⟩ := names_plain name named
  simp only [settingLine, List.mem_append, List.mem_cons, not_or]
  exact ⟨⟨unbroken, by decide, plain.1⟩, unreturned, by decide, plain.2⟩

/-- The lines that are read from the written text are the lines that were written. -/
theorem lines_text (config : Config) :
    lines (text config) = [magic, settingLine timeoutName (decimal config.authorizationTimeoutSeconds),
      settingLine historyName (spellBool config.historyEnabled)] := by
  have marked : 10 ∉ magic ∧ 13 ∉ magic := by decide +kernel
  have truth : ∀ enabled, 10 ∉ spellBool enabled ∧ 13 ∉ spellBool enabled := by decide +kernel
  have digits : 10 ∉ decimal config.authorizationTimeoutSeconds ∧
      13 ∉ decimal config.authorizationTimeoutSeconds :=
    ⟨fun member => absurd (decimal_digit member).1 (by decide),
      fun member => absurd (decimal_digit member).1 (by decide)⟩
  rw [text, lines_append marked, lines_append (settingLine_plain (by simp) digits),
    lines_append (settingLine_plain (by simp) (truth _)), lines_nil]

/-- The written text of a configuration in range is read back as that configuration. -/
theorem parse_text (config : Config) (within : config.InRange) : parse (text config) = .ok config := by
  have represented : config.authorizationTimeoutSeconds < 2 ^ 64 :=
    Nat.lt_of_le_of_lt within.2 (by decide)
  refine (parse_eq_ok _ _).mpr ⟨_, lines_text config, _, _, .inl rfl, ?_, within.1, within.2, rfl⟩
  exact parseUnsigned_decimal _ _ represented

/-- Assigning the printed value of a setting changes nothing. -/
theorem set_get (config : Config) (name value : Bytes) (within : config.InRange)
    (known : config.get name = some value) : config.set name value = (.ok (), config) := by
  rw [set_eq_ok]
  unfold Config.get at known
  split at known
  · rename_i named
    cases known
    have represented : config.authorizationTimeoutSeconds < 2 ^ 64 :=
      Nat.lt_of_le_of_lt within.2 (by decide)
    exact ⟨.timeout _, named, ⟨parseUnsigned_decimal _ _ represented, within⟩, rfl⟩
  · split at known
    · rename_i named
      cases known
      exact ⟨.history _, named, rfl, rfl⟩
    · cases known

/-! ## Sequences of calls -/

/-- The configuration that a sequence of calls leaves behind, whatever their results. -/
def Config.sets (config : Config) (calls : List (Bytes × Bytes)) : Config :=
  calls.foldl (fun config call => (config.set call.1 call.2).2) config

/-- One call keeps the timeout in range. -/
theorem Config.InRange.set {config : Config} (within : config.InRange) (name value : Bytes) :
    (config.set name value).2.InRange := by
  cases called : (config.set name value).1 with
  | error error => rwa [set_error config name value error called]
  | ok _ =>
    have succeeds : config.set name value = (.ok (), (config.set name value).2) := Prod.ext called rfl
    obtain ⟨setting, _, spelled, applied⟩ := (set_eq_ok _ _ _ _).mp succeeds
    rw [applied]
    cases setting with
    | timeout seconds => exact spelled.2
    | history enabled => exact within

/-- Any number of calls keeps the timeout in range. -/
theorem Config.InRange.sets {config : Config} (within : config.InRange) (calls : List (Bytes × Bytes)) :
    (config.sets calls).InRange := by
  induction calls generalizing config with
  | nil => exact within
  | cons call rest inductionHypothesis => exact inductionHypothesis (within.set call.1 call.2)

/-- The two configurations differ at most in the named setting. -/
def OnlyChanges (name : Bytes) (before after : Config) : Prop :=
  (name = timeoutName ∧ after.historyEnabled = before.historyEnabled) ∨
    (name = historyName ∧ after.authorizationTimeoutSeconds = before.authorizationTimeoutSeconds)

/-- A successful call changes at most the named setting. -/
theorem set_ok (config : Config) (name value : Bytes) (succeeds : (config.set name value).1 = .ok ()) :
    OnlyChanges name config (config.set name value).2 := by
  obtain ⟨setting, named, _, applied⟩ :=
    (set_eq_ok config (config.set name value).2 name value).mp (Prod.ext succeeds rfl)
  rw [applied]
  cases setting with
  | timeout seconds => exact .inl ⟨named, rfl⟩
  | history enabled => exact .inr ⟨named, rfl⟩

/-- The default configuration is in range. -/
theorem inRange_default : ({} : Config).InRange := ⟨by decide, by decide⟩

/-- An accepted text declares a timeout in range. -/
theorem inRange_of_parse {contents : Bytes} {config : Config} (accepted : parse contents = .ok config) :
    config.InRange := by
  obtain ⟨_, _, _, _, _, _, low, high, _⟩ := (parse_eq_ok _ _).mp accepted
  exact ⟨low, high⟩

/-! ## The file -/

section File

variable {enumerate : List Name → List Name} {faults : Faults}

/-- Whatever fails, a configuration that is loaded has a timeout in range. -/
theorem meets_load (path : Name) :
    Program.Meets (attempt enumerate faults) (fun _ => True) (load path).run (fun _ => True)
      (fun outcome _ => ∀ config, outcome = .ok config → config.InRange) := by
  have inspecting : Program.Meets (attempt enumerate faults) (fun _ => True) (inspect path)
      (fun _ => True) (fun _ _ => True) := Program.meets_call fun _ _ => ⟨trivial, trivial, trivial⟩
  have reading : Program.Meets (attempt enumerate faults) (fun _ => True) (demand (read path)).run
      (fun _ => True) (fun _ _ => True) := Program.meets_call fun _ _ => ⟨trivial, trivial, trivial⟩
  have checking (bytes : Bytes) : Program.Meets (attempt enumerate faults) (fun _ => True)
      (liftM (readToString bytes) : Task ConfigError Bytes).run (fun _ => True) (fun _ _ => True) :=
    Program.meets_check fun _ _ => ⟨trivial, trivial⟩
  have failing (error : ConfigError) (config : Config) (impossible : Except.error error = .ok config) :
      config.InRange := by cases impossible
  refine Program.Meets.routine (inspecting.observed (ε := ConfigError)) (fun found => ?_) ?_
  · cases found with
    | error error =>
      simp only [loadFound]
      split
      · apply Program.meets_done
        rintro _ _
        refine ⟨trivial, fun config loaded => ?_⟩
        cases loaded
        exact inRange_default
      · exact Program.meets_done fun _ _ => ⟨trivial, failing _⟩
    | ok metadata =>
      simp only [loadFound]
      split
      · exact Program.meets_done fun _ _ => ⟨trivial, failing _⟩
      · refine Program.Meets.routine (((reading.adapt ConfigError.io).weaken (fun _ _ => trivial) (fun _ => id)
          (fun _ _ _ => trivial))) (fun bytes => ?_) (fun _ _ _ => failing _)
        refine Program.Meets.routine (checking bytes) (fun contents => ?_) (fun _ _ _ => failing _)
        exact Program.meets_check fun _ _ => ⟨trivial, fun config loaded => inRange_of_parse loaded⟩
  · exact fun _ _ _ => failing _

/-- The directory of the configuration is prepared without changing what it shows. A
failure is never taken for a missing directory. -/
theorem meets_ensurePrivateDirectory (start : Place) :
    Program.Meets (attempt enumerate faults) (fun place => place = start) ensurePrivateDirectory.run
      (Kept start) (fun outcome place => Kept start place ∧ (outcome = .ok () → Prepared start place)) := by
  have inspecting : Program.Meets (attempt enumerate faults) (fun place => place = start) inspectPath
      (Kept start) (fun found place => place = start ∧ (start.metadata = found ∨
        ∃ error, found = .error error ∧ error.kind ≠ .notFound)) := by
    apply meets_attempt
    · exact fun _ same => .inl same
    · rintro _ rfl _
      exact ⟨.inl rfl, rfl, .inl rfl⟩
    · rintro _ fault rfl _
      exact ⟨.inl rfl, rfl, .inr ⟨fault.error, rfl, fault.present⟩⟩
  have creating : Program.Meets (attempt enumerate faults) (Kept start) (createDirectory 0o777) (Kept start)
      (fun _ => Kept start) := meets_createDirectory 0o777 start
  have protecting : Program.Meets (attempt enumerate faults) (Kept start) (protectDirectory 0o700)
      (Kept start) (fun outcome place => Kept start place ∧ (outcome = .ok () → Prepared start place)) :=
    meets_protectDirectory 0o700 start
  refine Program.Meets.routine (inspecting.observed (ε := ConfigError)) (fun found => ?_) ?_
  · cases found with
    | ok metadata =>
      simp only [requirePrivate]
      split
      · apply Program.meets_done
        rintro _ ⟨_, ⟨⟩, rfl, _⟩
        exact ⟨.inl rfl, .inl rfl, nofun⟩
      · rename_i accepted
        obtain ⟨_, closed⟩ := not_or.mp accepted
        apply Program.meets_done
        rintro place ⟨_, ⟨⟩, same, found⟩
        refine ⟨.inl same, .inl same, fun _ => ?_⟩
        subst same
        rcases found with found | ⟨_, impossible, _⟩
        · cases place with
          | absent => cases found
          | occupied kind =>
            cases found
            exact absurd (by decide : (0o777 : Nat) &&& 0o077 ≠ 0) closed
          | directory mode files =>
            exact ⟨files.lookup, .inl ⟨mode, files, rfl, fun _ => rfl⟩, mode, files, rfl, fun _ => rfl⟩
        · cases impossible
    | error error =>
      simp only [requirePrivate]
      split
      · refine Program.Meets.routine ((creating.adapt ConfigError.io).weaken ?_ (fun _ => id) (fun _ _ => id))
          (fun _ => ?_) ?_
        · rintro place ⟨_, _, same, _⟩
          exact .inl same
        · refine (protecting.adapt ConfigError.io).weaken ?_ (fun _ => id) ?_
          · rintro place ⟨_, _, kept⟩
            exact kept
          · rintro _ place ⟨_ | _, rfl, kept, prepared⟩
            · exact ⟨kept, nofun⟩
            · exact ⟨kept, fun _ => prepared rfl⟩
        · rintro _ place ⟨_, _, kept⟩
          exact ⟨kept, nofun⟩
      · apply Program.meets_done
        rintro place ⟨_, _, same, _⟩
        exact ⟨.inl same, .inl same, nofun⟩
  · rintro _ _ ⟨_, impossible, _⟩
    cases impossible

/-- No temporary name is the configuration's name. -/
theorem temporaryName_ne_configName (pid : UInt32) (attempt : Nat) : temporaryName pid attempt ≠ configName := by
  intro same
  have heads := congrArg List.head? same
  have dot : utf8 ".config." = 46 :: utf8 "config." := by decide
  have letter : configName.head? = some 99 := by decide
  simp only [temporaryName, dot, List.cons_append, List.head?_cons, letter] at heads
  cases heads

/-- The file that a save leaves behind. -/
def configFile (config : Config) : File := ⟨.regular, 0o600, text config⟩

/-- A save rewrites the configuration's file, whatever fails and wherever it stops. -/
theorem meets_save (pid : UInt32) (config : Config) (start : Place) :
    Program.Meets (attempt enumerate faults) (fun place => place = start) (save pid configName config).run
      (Rewriting start (temporaryNames pid) configName (configFile config))
      (Rewritten start (temporaryNames pid) configName (configFile config) faults) := by
  have apart (temporary : Name) (member : temporary ∈ temporaryNames pid) : temporary ≠ configName := by
    obtain ⟨attempt, _, rfl⟩ := List.mem_map.mp member
    exact temporaryName_ne_configName pid attempt
  have preparing : Program.Meets (attempt enumerate faults) (fun place => place = start)
      ensurePrivateDirectory.run (Rewriting start (temporaryNames pid) configName (configFile config))
      (fun outcome place => Kept start place ∧ (outcome = .ok () → Prepared start place)) :=
    (meets_ensurePrivateDirectory start).weaken (fun _ => id) (fun _ kept => .inl (.inl kept)) fun _ _ => id
  have creating : Program.Meets (attempt enumerate faults) (Prepared start) (createTemporaryFile pid).run
      (Rewriting start (temporaryNames pid) configName (configFile config))
      (fun outcome place => match outcome with
        | .ok temporary => Opened start (temporaryNames pid) 0o600 temporary place
        | .error _ => Unpublished start (temporaryNames pid) place) := by
    refine Program.Meets.routine ((meets_opening 0o600).adapt ConfigError.io) (fun temporary => ?_) ?_
    · cases temporary with
      | none =>
        apply Program.meets_done
        rintro place ⟨_ | _, ⟨⟩, unpublished⟩
        exact ⟨.inl unpublished, unpublished⟩
      | some temporary =>
        apply Program.meets_done
        rintro place ⟨_ | _, ⟨⟩, opened⟩
        exact ⟨.inl opened.unpublished, opened⟩
    · rintro _ place ⟨_ | _, same, unpublished⟩
      · exact unpublished
      · cases same
  refine Program.Meets.routine preparing (fun _ => ?_) ?_
  · refine Program.Meets.routine (creating.weaken ?_ (fun _ => id) (fun _ _ => id)) (fun temporary => ?_) ?_
    · rintro place ⟨_, prepared⟩
      exact prepared rfl
    · apply Program.meets_of_each
      rintro place opened
      exact meets_publishing ConfigError.io (apart temporary opened.1) opened
    · exact fun _ _ unpublished => .inl unpublished
  · rintro _ place ⟨kept, _⟩
    exact .inl (.inl kept)

/-- The directory of the configuration is missing, or it is private, has a free temporary
name and no directory where the file belongs. -/
def Writable (pid : UInt32) (place : Place) : Prop :=
  place = .absent ∨ ∃ mode files, place = .directory mode files ∧ mode &&& 0o077 = 0 ∧
    (∃ temporary ∈ temporaryNames pid, files.lookup temporary = none) ∧
      ∀ file, files.lookup configName = some file → file.kind ≠ .directory

variable (enumerate) in
/-- Where no operation fails such a directory is accepted or made. -/
theorem execute_ensurePrivateDirectory {pid : UInt32} {place : Place} (writable : Writable pid place) :
    ∃ view prepared, Stands place view ∧ execute enumerate ensurePrivateDirectory place = (.ok (), prepared) ∧
      Shows prepared view ∧ (∃ temporary ∈ temporaryNames pid, view temporary = none) ∧
        ∀ file, view configName = some file → file.kind ≠ .directory := by
  rcases writable with rfl | ⟨mode, files, rfl, closed, free, replaceable⟩
  · have first : temporaryName pid 0 ∈ temporaryNames pid := List.mem_map.mpr ⟨0, by decide, rfl⟩
    exact ⟨fun _ => none, .directory 0o700 ∅, .inr ⟨rfl, rfl⟩, rfl, ⟨0o700, ∅, rfl, fun _ => rfl⟩,
      ⟨_, first, rfl⟩, nofun⟩
  · have shows : Shows (.directory mode files) files.lookup := ⟨mode, files, rfl, fun _ => rfl⟩
    refine ⟨files.lookup, .directory mode files, .inl shows, ?_, shows, free, replaceable⟩
    have accepted : ¬ (FileKind.directory ≠ .directory ∨ mode &&& 0o077 ≠ 0) := by
      rw [not_or, not_not, not_not]
      exact ⟨rfl, closed⟩
    simp only [ensurePrivateDirectory, execute_bind, execute_observe]
    show execute enumerate (requirePrivate (.ok (.directory, mode))) (.directory mode files) = _
    rw [requirePrivate, if_neg accepted]
    rfl

/-- Where no operation fails a save succeeds, and only the configuration's file changes. The
first free temporary name takes the text, and publishing moves it over the file. -/
theorem execute_save (pid : UInt32) (config : Config) {place : Place} (writable : Writable pid place) :
    ∃ after, execute enumerate (save pid configName config) place = (.ok (), after) ∧
      after.lookup configName = .ok (configFile config) ∧
        ∀ name, name ≠ configName → after.lookup name = place.lookup name := by
  obtain ⟨view, prepared, stands, prepares, shows, free, replaceable⟩ :=
    execute_ensurePrivateDirectory enumerate writable
  obtain ⟨temporary, candidate, unused, created, creates, createdShows⟩ :=
    execute_createFirst enumerate 0o600 _ prepared view shows free
  obtain ⟨attempt, _, rfl⟩ := List.mem_map.mp candidate
  have apart := temporaryName_ne_configName pid attempt
  have stillReplaceable (file : File) (found : Function.update view (temporaryName pid attempt)
      (some ⟨.regular, 0o600, []⟩) configName = some file) : file.kind ≠ .directory := by
    rw [Function.update_of_ne apart.symm] at found
    exact replaceable file found
  obtain ⟨after, publishes, publishedShows, _⟩ := execute_publish enumerate (temporaryName pid attempt) configName
    (text config) 0o600 apart createdShows (Function.update_self _ _ _) stillReplaceable
  rw [Function.update_idem, ← unused, Function.update_eq_self] at publishedShows
  refine ⟨after, ?_, ?_, ?_⟩
  · simp only [save, execute_bind, prepares, createTemporaryFile, execute_reporting, creates, Except.mapError,
      allocated, execute_lift, publishes]
  · rw [lookup_of_stands (.inl publishedShows), Function.update_self]
    rfl
  · intro name elsewhere
    rw [lookup_of_stands (.inl publishedShows), lookup_of_stands stands, Function.update_of_ne elsewhere]

/-- After a successful save the configuration's file is found with the written text. -/
theorem lookup_of_save {pid : UInt32} {config : Config} {start after : Place}
    (saves : executeFaulty enumerate faults (save pid configName config) start = (.ok (), after)) :
    after.lookup configName = .ok (configFile config) := by
  have ended : Rewritten start (temporaryNames pid) configName (configFile config) faults
      (executeFaulty enumerate faults (save pid configName config) start).1
      (executeFaulty enumerate faults (save pid configName config) start).2 :=
    (meets_save pid config start start rfl).2
  rw [saves] at ended
  obtain ⟨view, _, replaced⟩ := ended
  rw [lookup_of_stands (.inl replaced), Function.update_self]
  rfl

/-- Every byte of the written text is ASCII. -/
theorem ascii_text (config : Config) : ∀ byte ∈ text config, byte < 128 := by
  have fixed : ∀ byte ∈ magic ++ timeoutName ++ historyName ++ [10, 61], byte < 128 := by decide +kernel
  have truth : ∀ enabled, ∀ byte ∈ spellBool enabled, byte < 128 := by decide +kernel
  have digits (byte : UInt8) (member : byte ∈ decimal config.authorizationTimeoutSeconds) : byte < 128 :=
    Nat.lt_of_le_of_lt (decimal_digit member).2 (by decide)
  intro byte member
  simp only [text, settingLine, List.mem_append, List.mem_cons] at member fixed
  grind

/-- A saved configuration that is in range is loaded again. -/
theorem load_after_save {pid : UInt32} {config : Config} {start after : Place} (within : config.InRange)
    (saves : executeFaulty enumerate faults (save pid configName config) start = (.ok (), after)) :
    execute enumerate (load configName) after = (.ok config, after) := by
  obtain ⟨written, spelled⟩ := ascii_is_text (text config) (ascii_text config)
  have readable : readToString (text config) = .ok (text config) := by
    rw [readToString, spelled, fromUtf8_utf8]
    rfl
  have closed : ¬ ((configFile config).kind ≠ .regular ∨ (configFile config).mode &&& 0o077 ≠ 0) := by
    rw [not_or, not_not, not_not]
    exact ⟨rfl, (by decide : (0o600 : Nat) &&& 0o077 = 0)⟩
  have contents : contentsOf (configFile config) = .ok (text config) := rfl
  simp only [load, execute_bind, execute_observe, run_inspect, lookup_of_save saves, Except.map, loadFound,
    closed, ↓reduceIte, execute_reporting, execute_demand, run_read, Except.bind, contents, Except.mapError]
  simp only [execute_lift, readable, parse_text config within]

end File

/-! ## Exact and normal -/

/-- A configuration that calls can start from: the default, or one that was loaded from
some place, whatever fails there. -/
def Loaded (config : Config) : Prop :=
  config = {} ∨ ∃ enumerate faults path place, (executeFaulty enumerate faults (load path) place).1 = .ok config

/-- A configuration that calls can start from is in range. -/
theorem Loaded.inRange {config : Config} (loaded : Loaded config) : config.InRange := by
  rcases loaded with rfl | ⟨enumerate, faults, path, place, loads⟩
  · exact inRange_default
  · have ended : ∀ config, (executeFaulty enumerate faults (load path) place).1 = .ok config → config.InRange :=
      (meets_load path place trivial).2
    exact ended config loads

/-- A text is accepted exactly when its lines are the magic line and, in either order, one
line for each setting with an accepted value, and the configuration holds these values.

From the default and from every loaded configuration, any sequence of calls with any names
and values keeps the timeout in range; one more call that fails changes nothing and one
that succeeds changes at most the named setting. The written text of the result is read
back as the result, and so is the file that a successful save leaves in a directory,
whatever fails on the way. -/
theorem configuration_text_exact :
    (∀ (contents : Bytes) (config : Config), parse contents = .ok config ↔
      ∃ value spelled : Bytes,
        (lines contents = [magic, timeoutName ++ 61 :: value, historyName ++ 61 :: spelled] ∨
          lines contents = [magic, historyName ++ 61 :: spelled, timeoutName ++ 61 :: value]) ∧
        parseUnsigned (2 ^ 64) value = some config.authorizationTimeoutSeconds ∧
        10 ≤ config.authorizationTimeoutSeconds ∧ config.authorizationTimeoutSeconds ≤ 120 ∧
        spelled = if config.historyEnabled then utf8 "true" else utf8 "false") ∧
    ∀ start, Loaded start → ∀ calls : List (Bytes × Bytes),
      (10 ≤ (start.sets calls).authorizationTimeoutSeconds ∧
        (start.sets calls).authorizationTimeoutSeconds ≤ 120) ∧
      (∀ name value,
        (∀ error, ((start.sets calls).set name value).1 = .error error →
          ((start.sets calls).set name value).2 = start.sets calls) ∧
        (((start.sets calls).set name value).1 = .ok () →
          OnlyChanges name (start.sets calls) ((start.sets calls).set name value).2)) ∧
      parse (text (start.sets calls)) = .ok (start.sets calls) ∧
      ∀ enumerate pid place,
        (∀ faults after,
          executeFaulty enumerate faults (save pid configName (start.sets calls)) place = (.ok (), after) →
          (∃ file, after.lookup configName = .ok file ∧ parse file.contents = .ok (start.sets calls)) ∧
            execute enumerate (load configName) after = (.ok (start.sets calls), after)) ∧
        (Writable pid place → ∃ after,
          execute enumerate (save pid configName (start.sets calls)) place = (.ok (), after) ∧
          after.lookup configName = .ok ⟨.regular, 0o600, text (start.sets calls)⟩ ∧
          ∀ name, name ≠ configName → after.lookup name = place.lookup name) := by
  constructor
  · intro contents config
    have truth : (if config.historyEnabled then utf8 "true" else utf8 "false") =
        spellBool config.historyEnabled := by cases config.historyEnabled <;> rfl
    rw [parse_eq_ok, truth]
    constructor
    · rintro ⟨rest, found, value, spelled, order, declared⟩
      refine ⟨value, spelled, ?_, declared⟩
      rcases order with rfl | rfl
      · exact .inl found
      · exact .inr found
    · rintro ⟨value, spelled, order, declared⟩
      rcases order with found | found
      · exact ⟨_, found, value, spelled, .inl rfl, declared⟩
      · exact ⟨_, found, value, spelled, .inr rfl, declared⟩
  · intro start loaded calls
    have within := loaded.inRange.sets calls
    refine ⟨within, fun name value => ⟨set_error _ name value, set_ok _ name value⟩, parse_text _ within, ?_⟩
    intro enumerate pid place
    refine ⟨fun faults after saves => ?_, fun writable => execute_save pid _ writable⟩
    exact ⟨⟨_, lookup_of_save saves, parse_text _ within⟩, load_after_save within saves⟩

namespace Sample

/-- Both settings are changed, and once more in vain. -/
def calls : List (Bytes × Bytes) :=
  [(historyName, utf8 "false"), (timeoutName, utf8 "30"), (timeoutName, utf8 "3000")]

/-- A private directory with a configuration and a temporary file that was left over. -/
def place : Place := .directory 0o700
  (((∅ : Files).insert configName ⟨.regular, 0o600, text {}⟩).insert (temporaryName 7 0) ⟨.regular, 0o600, []⟩)

/-- That directory has a free temporary name. -/
theorem writable : Writable 7 place := by
  refine .inr ⟨_, _, rfl, rfl, ⟨temporaryName 7 1, List.mem_map.mpr ⟨1, by decide, rfl⟩, by decide +kernel⟩, ?_⟩
  intro file found
  have shown : file = ⟨.regular, 0o600, text {}⟩ := (Option.some.inj (by rw [← found]; decide +kernel)).symm
  rw [shown]
  decide

end Sample

/-- The changed settings replace the configuration in that directory and are loaded again. -/
theorem configuration_text_exact_saved : ∃ after,
    execute id (save 7 configName (({} : Config).sets Sample.calls)) Sample.place = (.ok (), after) ∧
      ({} : Config).sets Sample.calls = ⟨30, false⟩ ∧
      execute id (load configName) after = (.ok ⟨30, false⟩, after) := by
  obtain ⟨_, _, _, saving⟩ := configuration_text_exact.2 {} (.inl rfl) Sample.calls
  obtain ⟨after, saves, _⟩ := (saving id 7 Sample.place).2 Sample.writable
  have result : ({} : Config).sets Sample.calls = ⟨30, false⟩ := by decide +kernel
  have loads := ((saving id 7 Sample.place).1 (fun _ => none) after saves).2
  rw [result] at loads
  exact ⟨after, saves, result, loads⟩

/-- Both orders are accepted, and so are a carriage return before a line feed, a plus sign
and leading zeros; a blank line, a repeated setting and a second separator are not. -/
example :
    parse (utf8 "KEYVISOR-CONFIG-1\r\nhistory-enabled=false\nauthorization-timeout-seconds=+0045") =
      .ok ⟨45, false⟩ ∧
    parse (utf8 "KEYVISOR-CONFIG-1\n\nhistory-enabled=true\nauthorization-timeout-seconds=45\n") =
      .error .invalidData ∧
    parse (utf8 "KEYVISOR-CONFIG-1\nhistory-enabled=true\nhistory-enabled=true\n") = .error .invalidData ∧
    parse (utf8 "KEYVISOR-CONFIG-1\nhistory-enabled==true\nauthorization-timeout-seconds=45\n") =
      .error .invalidData := by decide +kernel

end Keyvisor.Configuration
