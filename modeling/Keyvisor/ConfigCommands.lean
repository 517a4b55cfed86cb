import Keyvisor.Configuration
import Keyvisor.Creation
import Keyvisor.Foundation.Looking
import Keyvisor.Foundation.Session

/-!
# Configuration on the command line

Executable translation of `run_config` and `print_config` in `keyvisor-cli/src/main.rs`,
for the directory of `config_path`. Every command is a process of its own that may be
stopped at any point and whose operations may fail.

Over any number of commands the directory behaves as one configuration that only
successful settings, and now and then an unreported one, have changed.
-/

namespace Keyvisor.ConfigCommands

open Foundation Foundation.Directory Foundation.Session Foundation.Text Foundation.Transition Keyvisor.Configuration
open Creation (osText)

/-- Both settings, as the file has them. -/
def printConfig (config : Config) : List Bytes :=
  [settingLine timeoutName (decimal config.authorizationTimeoutSeconds),
    settingLine historyName (spellBool config.historyEnabled)]

/-- `store.load()` with its error as text. -/
def loaded : Task String Config := reporting ConfigError.message (load configName)

/-- The lines that a command prints. -/
def listConfig : Task String (List Bytes) := do
  let config ← loaded
  return printConfig config

/-- A setting that exists. -/
def found (config : Config) (name : String) : Except String (List Bytes) :=
  match config.get (utf8 name) with
  | some value => .ok [value]
  | none => .error ("unknown setting `" ++ name ++ "`")

/-- `config get`. -/
def getConfig (name : Bytes) : Task String (List Bytes) := do
  let name ← osText name "setting name"
  let config ← loaded
  found config name

/-- The changed configuration, when the setting accepts the value. -/
def changed (config : Config) (name value : String) : Except String Config :=
  match config.set (utf8 name) (utf8 value) with
  | (.ok _, after) => .ok after
  | (.error error, _) => .error error.message

/-- `config set`. -/
def setConfig (pid : UInt32) (name value : Bytes) : Task String (List Bytes) := do
  let name ← osText name "setting name"
  let value ← osText value "setting value"
  let config ← loaded
  let config ← changed config name value
  reporting ConfigError.message (save pid configName config)
  return [settingLine (utf8 name) (utf8 value)]

/-- The message of any other command line. -/
def invalidCommand : String := "invalid config command; run `keyvisor --help`"

/-- `run_config`. -/
def runConfig (pid : UInt32) : List Bytes → Task String (List Bytes)
  | [command] => if command = utf8 "list" then listConfig else throw invalidCommand
  | [command, name] => if command = utf8 "get" then getConfig name else throw invalidCommand
  | [command, name, value] => if command = utf8 "set" then setConfig pid name value else throw invalidCommand
  | _ => throw invalidCommand

/-! ## One configuration -/

/-- The configuration after a command that succeeds. -/
def applied (arguments : List Bytes) (config : Config) : Config :=
  match arguments with
  | [command, name, value] =>
    if command = utf8 "set" ∧ (fromUtf8 name).isSome ∧ (fromUtf8 value).isSome then (config.set name value).2
    else config
  | _ => config

/-- What a command that succeeds prints of a configuration. -/
def report (arguments : List Bytes) (config : Config) : Option (List Bytes) :=
  match arguments with
  | [_] => some (printConfig config)
  | [_, name] => (config.get name).map fun value => [value]
  | [_, name, value] => if (config.set name value).1 = .ok () then some [settingLine name value] else none
  | _ => none

/-- What a reader finds, given the entry of the file. -/
def shownBy : Except IoError File → Except ConfigError Config
  | .ok file =>
    if file.kind ≠ .regular ∨ file.mode &&& 0o077 ≠ 0 then .error .invalidData
    else (contentsOf file).mapError ConfigError.io |>.bind fun bytes => (readToString bytes).bind parse
  | .error error => if error.kind = .notFound then .ok {} else .error (.io error)

/-- Without faults a load returns what the entry of the file shows, and changes nothing. -/
theorem execute_load (enumerate : List Name → List Name) (place : Place) :
    execute enumerate (load configName) place = (shownBy (place.lookup configName), place) := by
  simp only [load, execute_bind, execute_observe, run_inspect]
  cases stored : place.lookup configName with
  | error error =>
    simp only [Except.map, loadFound, shownBy]
    split <;> rfl
  | ok file =>
    simp only [Except.map, loadFound, shownBy]
    split
    · rfl
    · simp only [execute_bind, execute_reporting, execute_demand, run_read, stored, Except.bind]
      cases contentsOf file with
      | error error => rfl
      | ok bytes =>
        simp only [Except.mapError, execute_lift]
        cases readToString bytes with
        | error error => rfl
        | ok contents => rfl

/-- What every reader finds whose operations do not fail. -/
def Shown (place : Place) (config : Config) : Prop := shownBy (place.lookup configName) = .ok config

/-- Every reader finds it. -/
theorem shown_iff (enumerate : List Name → List Name) (place : Place) (config : Config) :
    Shown place config ↔ execute enumerate (load configName) place = (.ok config, place) := by
  rw [execute_load, Prod.mk.injEq, and_iff_left rfl, Shown]

/-- What readers find is in range. -/
theorem shown_inRange {place : Place} {config : Config} (shown : Shown place config) : config.InRange := by
  have loads := congrArg Prod.fst ((shown_iff id place config).mp shown)
  exact Loaded.inRange (.inr ⟨id, fun _ => none, configName, place, loads⟩)

section

variable {enumerate : List Name → List Name} {faults : Faults}

/-- A load only looks. -/
theorem looks_load : (load configName).run.Issues Looks := by
  refine Program.Issues.routine (Program.issues_observed (Program.issues_call trivial)) fun metadata => ?_
  cases metadata with
  | error error =>
    simp only [loadFound]
    split <;> trivial
  | ok metadata =>
    simp only [loadFound]
    split
    · trivial
    · have reads : (demand (read configName)).run.Issues Looks := Program.issues_call trivial
      exact (Program.issues_adapt ConfigError.io reads).routine fun bytes =>
        (Program.issues_check _ _).routine fun contents => Program.issues_check _ _

/-- Only a missing file is no failure of a load. -/
theorem strict_load : Strict (load configName).run := by
  refine ⟨fun fault => ?_, fun metadata => ?_⟩
  · show Fails (loadFound configName (.error fault.error)).run
    rw [loadFound, if_neg fault.present]
    exact fails_error _
  · show Strict (loadFound configName metadata).run
    cases (metadata : Except IoError (FileKind × Nat)) with
    | error error =>
      simp only [loadFound]
      split <;> trivial
    | ok metadata =>
      simp only [loadFound]
      split
      · trivial
      · have reads : Strict (demand (read configName)).run := ⟨fun _ => fails_error _, fun _ => trivial⟩
        exact (reads.adapt ConfigError.io).routine fun bytes => (strict_check _).routine fun contents => strict_check _

/-- A load that succeeds although operations may fail has found what is shown. -/
theorem meets_load_shown (start : Place) :
    Program.Meets (attempt enumerate faults) (fun place => place = start) (load configName).run
      (fun place => place = start)
      (fun outcome place => place = start ∧ ∀ config, outcome = .ok config → Shown start config) := by
  refine (meets_finding looks_load strict_load start).weaken (fun _ => id) (fun _ => id) ?_
  rintro outcome place ⟨same, finds⟩
  exact ⟨same, fun config succeeded => (shown_iff enumerate start config).mpr (finds config succeeded)⟩

/-- A load leaves the directory alone, and what it returns is what the directory shows. -/
theorem meets_loaded (start : Place) :
    Program.Meets (attempt enumerate faults) (fun place => place = start) loaded.run (fun place => place = start)
      (fun outcome place => place = start ∧ ∀ config, outcome = .ok config → Shown start config) := by
  refine ((meets_load_shown start).adapt ConfigError.message).weaken (fun _ => id) (fun _ => id) ?_
  rintro _ place ⟨_ | _, rfl, same, shows⟩
  · refine ⟨same, fun config impossible => ?_⟩
    cases impossible
  · refine ⟨same, fun config loads => ?_⟩
    cases loads
    exact shows _ rfl

/-! ## One command -/

/-- Temporary files are not looked at. -/
theorem shown_of_unpublished {pid : UInt32} {start place : Place} {config : Config}
    (unpublished : Unpublished start (temporaryNames pid) place) (shown : Shown start config) :
    Shown place config := by
  have same : place.lookup configName = start.lookup configName := by
    rcases unpublished with (rfl | ⟨view, stands, shows⟩) | ⟨view, stands, temporary, member, _, added, shows⟩
    · rfl
    · rw [lookup_of_stands stands, lookup_of_stands (.inl shows)]
    · obtain ⟨attempt, _, rfl⟩ := List.mem_map.mp member
      rw [lookup_of_stands stands, lookup_of_stands (.inl shows),
        Function.update_of_ne (temporaryName_ne_configName pid attempt).symm]
  rw [Shown, same]
  exact shown

/-- The written file is found. -/
theorem shown_of_published {start place : Place} {config : Config} (within : config.InRange)
    (published : Published start configName (configFile config) place) : Shown place config := by
  obtain ⟨view, _, replaced⟩ := published
  have stored : place.lookup configName = .ok (configFile config) := by
    rw [lookup_of_stands (.inl replaced), Function.update_self]
    rfl
  obtain ⟨written, spelled⟩ := ascii_is_text (text config) (ascii_text config)
  have readable : readToString (text config) = .ok (text config) := by
    rw [readToString, spelled, fromUtf8_utf8]
    rfl
  have plain : ¬ ((configFile config).kind ≠ .regular ∨ (configFile config).mode &&& 0o077 ≠ 0) := by
    rw [not_or, not_not, not_not]
    exact ⟨rfl, (by decide : (0o600 : Nat) &&& 0o077 = 0)⟩
  rw [Shown, stored, shownBy, if_neg plain]
  show (readToString (text config)).bind parse = .ok config
  rw [readable]
  exact parse_text config within

/-- What a command is for. A failure to sync the directory may come after its effect. -/
def purpose (faults : Faults) (arguments : List Bytes) : Purpose Config (List Bytes) where
  effect := applied arguments
  answers config lines := report arguments config = some lines
  excused := Unsynced faults

/-- A text argument is that text or is refused. -/
theorem osText_cases (value : Bytes) (label : String) :
    (∃ text, osText value label = .ok text ∧ value = utf8 text) ∨
      ∃ message, osText value label = .error message := by
  unfold osText
  cases spelled : fromUtf8 value with
  | none => exact .inr ⟨_, rfl⟩
  | some text => exact .inl ⟨text, rfl, (fromUtf8_eq_some _ _).mp spelled⟩

section

variable (pid : UInt32) {start : Place} {config : Config} (shown : Shown start config)

include shown

/-- What was loaded is what is shown, and nothing has changed yet. -/
theorem meets_afterLoad {arguments : List Bytes} {next : Config → Task String (List Bytes)}
    (rest : Program.Meets (attempt enumerate faults) (fun place => place = start) (next config).run
      ((purpose faults arguments).Between Shown config) ((purpose faults arguments).Ended Shown config)) :
    Program.Meets (attempt enumerate faults) (fun place => place = start) (loaded >>= next).run
      ((purpose faults arguments).Between Shown config) ((purpose faults arguments).Ended Shown config) := by
  refine Program.Meets.routine ((meets_loaded start).weaken (fun _ => id) ?_ (fun _ _ => id)) (fun found => ?_) ?_
  · rintro _ rfl
    exact .inl shown
  · apply Program.meets_of_each
    rintro place ⟨rfl, shows⟩
    obtain rfl := Except.ok.inj (shown.symm.trans (shows found rfl))
    exact rest
  · rintro error place ⟨rfl, _⟩
    exact .inl shown

/-- A command that only looks. -/
theorem meets_looked {arguments : List Bytes} (same : applied arguments config = config)
    (outcome : Except String (List Bytes))
    (reported : ∀ lines, outcome = .ok lines → report arguments config = some lines) :
    Program.Meets (attempt enumerate faults) (fun place => place = start)
      (liftM outcome : Task String (List Bytes)).run ((purpose faults arguments).Between Shown config)
      ((purpose faults arguments).Ended Shown config) := by
  apply Program.meets_check
  rintro _ rfl
  refine ⟨.inl shown, ?_⟩
  cases outcome with
  | error message => exact .inl shown
  | ok lines =>
    refine ⟨?_, reported lines rfl⟩
    show Shown _ (applied arguments config)
    rwa [same]

/-- Listing the settings does what its purpose says. -/
theorem meets_listConfig (command : Bytes) :
    Program.Meets (attempt enumerate faults) (fun place => place = start) listConfig.run
      ((purpose faults [command]).Between Shown config) ((purpose faults [command]).Ended Shown config) :=
  meets_afterLoad shown (meets_looked shown rfl (.ok (printConfig config)) fun _ same =>
    congrArg some (Except.ok.inj same))

/-- Getting a setting does what its purpose says. -/
theorem meets_getConfig (command name : Bytes) :
    Program.Meets (attempt enumerate faults) (fun place => place = start) (getConfig name).run
      ((purpose faults [command, name]).Between Shown config)
      ((purpose faults [command, name]).Ended Shown config) := by
  unfold getConfig
  rcases osText_cases name "setting name" with ⟨text, spelled, rfl⟩ | ⟨message, refused⟩
  · rw [spelled]
    refine meets_afterLoad shown (meets_looked shown rfl (found config text) fun lines same => ?_)
    unfold found at same
    split at same
    · rename_i value known
      cases same
      rw [report, known]
      rfl
    · cases same
  · rw [refused]
    exact Purpose.meets_refused _ shown rfl

/-- Changing a setting does what its purpose says. -/
theorem meets_setConfig (name value : Bytes) :
    Program.Meets (attempt enumerate faults) (fun place => place = start) (setConfig pid name value).run
      ((purpose faults [utf8 "set", name, value]).Between Shown config)
      ((purpose faults [utf8 "set", name, value]).Ended Shown config) := by
  unfold setConfig
  rcases osText_cases name "setting name" with ⟨name, named, rfl⟩ | ⟨message, refused⟩
  · rcases osText_cases value "setting value" with ⟨value, valued, rfl⟩ | ⟨message, refused⟩
    · rw [named, valued]
      refine meets_afterLoad shown ?_
      have result : applied [utf8 "set", utf8 name, utf8 value] config = (config.set (utf8 name) (utf8 value)).2 := by
        rw [applied, if_pos ⟨rfl, by simp, by simp⟩]
      cases called : config.set (utf8 name) (utf8 value) with
      | mk outcome after =>
      have within : after.InRange := by
        have kept := (shown_inRange shown).set (utf8 name) (utf8 value)
        rwa [called] at kept
      rw [called] at result
      cases outcome with
      | error error =>
        have refused : changed config name value = .error error.message := by rw [changed, called]
        rw [refused]
        exact Purpose.meets_refused _ shown rfl
      | ok _ =>
        have accepted : changed config name value = .ok after := by rw [changed, called]
        rw [accepted]
        show Program.Meets _ _ (reporting ConfigError.message (save pid configName after) >>= fun _ =>
          pure [settingLine (utf8 name) (utf8 value)] : Task String (List Bytes)).run _ _
        have shows {place : Place} (published : Published start configName (configFile after) place) :
            Shown place (applied [utf8 "set", utf8 name, utf8 value] config) := by
          rw [result]
          exact shown_of_published within published
        refine Program.Meets.routine (((meets_save pid after start).adapt ConfigError.message).weaken (fun _ => id) ?_
          (fun _ _ => id)) (fun _ => ?_) ?_
        · rintro place (unpublished | published)
          · exact .inl (shown_of_unpublished unpublished shown)
          · exact .inr (shows published)
        · apply Program.meets_done
          rintro place ⟨_ | _, ⟨⟩, published⟩
          refine ⟨.inr (shows published), shows published, ?_⟩
          show report [utf8 "set", utf8 name, utf8 value] config = some _
          rw [report, called]
          rfl
        · rintro _ place ⟨_ | _, ⟨⟩, unpublished | ⟨unsynced, published⟩⟩
          · exact .inl (shown_of_unpublished unpublished shown)
          · exact .inr ⟨unsynced, shows published⟩
    · rw [named, refused]
      exact Purpose.meets_refused _ shown rfl
  · rw [refused]
    exact Purpose.meets_refused _ shown rfl

/-- Every command line does what its purpose says. -/
theorem meets_runConfig (arguments : List Bytes) :
    Program.Meets (attempt enumerate faults) (fun place => place = start) (runConfig pid arguments).run
      ((purpose faults arguments).Between Shown config) ((purpose faults arguments).Ended Shown config) := by
  unfold runConfig
  split
  · split
    · exact meets_listConfig shown _
    · exact Purpose.meets_refused _ shown rfl
  · split
    · exact meets_getConfig shown _ _
    · exact Purpose.meets_refused _ shown rfl
  · split
    · rename_i same
      rw [same]
      exact meets_setConfig pid shown _ _
    · exact Purpose.meets_refused _ shown rfl
  · exact Purpose.meets_refused _ shown rfl

end

/-- Every command serves its purpose from whatever the directory shows. -/
theorem serves_runConfig (pid : UInt32) (arguments : List Bytes) :
    (purpose faults arguments).Serves Shown (attempt enumerate faults) (runConfig pid arguments).run :=
  fun _ _ shown => meets_runConfig pid shown arguments

end

/-! ## Any number of commands -/

/-- A command with what it meets and how it ends. -/
structure Invocation where
  pid : UInt32
  arguments : List Bytes
  enumerate : List Name → List Name
  faults : Faults
  ending : Ending String (List Bytes)

/-- What the arguments of an invocation ask for. -/
def Invocation.purpose (invocation : Invocation) : Purpose Config (List Bytes) :=
  ConfigCommands.purpose invocation.faults invocation.arguments

/-- The directory after a command, if the command ends so. -/
def step (place : Place) (invocation : Invocation) : Option Place :=
  settle (attempt invocation.enumerate invocation.faults) (runConfig invocation.pid invocation.arguments).run place
    invocation.ending

/-- Over any number of commands, whatever fails and wherever they are stopped, the directory
shows one configuration, which the commands change in their order: successful ones as their
arguments ask, and printing what is then true, failed ones not at all unless the directory could not
be synced. When all commands end and sync it, only the successful ones have changed it. -/
theorem commands_act_on_one_configuration {start final : Place} {config : Config} {invocations : List Invocation}
    (shown : Shown start config) (reached : run step start invocations = some final) :
    ∃ last, Shown final last ∧ Chain Invocation.purpose Invocation.ending config invocations last ∧
      ((∀ invocation ∈ invocations, Sure Invocation.purpose Invocation.ending invocation) →
        last = invocations.foldl (reported Invocation.purpose Invocation.ending) config) := by
  have acts (start : Place) (invocation : Invocation) (final : Place) (config : Config) (shown : Shown start config)
      (taken : step start invocation = some final) :
      ∃ later, Shown final later ∧ Acts invocation.purpose invocation.ending config later :=
    (serves_runConfig invocation.pid invocation.arguments).acts shown taken
  obtain ⟨last, shows, chain⟩ := chain_of_run acts shown reached
  exact ⟨last, shows, chain, chain.reported_of_sure⟩

namespace Sample

/-- A command that nothing hinders. -/
def unhindered (arguments : List Bytes) (ending : Ending String (List Bytes)) : Invocation :=
  ⟨7, arguments, id, fun _ => none, ending⟩

/-- The history is switched off, once in vain, and the setting is looked at. -/
def session : List Invocation :=
  [unhindered [utf8 "set", historyName, utf8 "no"] (.completed (.error ConfigError.invalidValue.message)),
    unhindered [utf8 "set", historyName, utf8 "false"] (.completed (.ok [settingLine historyName (utf8 "false")])),
    unhindered [utf8 "get", historyName] (.completed (.ok [utf8 "false"]))]

/-- A command that nothing hinders is sure. -/
theorem sure_unhindered (arguments : List Bytes) (outcome : Except String (List Bytes)) :
    Sure Invocation.purpose Invocation.ending (unhindered arguments (.completed outcome)) := by
  refine ⟨⟨outcome, rfl⟩, ?_⟩
  rintro (hindered | hindered) <;> exact hindered rfl

end Sample

/-- A session that switches the history off. -/
theorem commands_act_on_one_configuration_session : ∃ final last, run step .absent Sample.session = some final ∧
    Shown final last ∧ last.historyEnabled = false := by
  have shown : Shown .absent {} := rfl
  have reached : run step .absent Sample.session = some _ := rfl
  obtain ⟨last, shows, _, settled⟩ := commands_act_on_one_configuration shown reached
  refine ⟨_, last, reached, shows, ?_⟩
  rw [settled]
  · rfl
  · intro invocation member
    simp only [Sample.session, List.mem_cons, List.not_mem_nil, or_false] at member
    rcases member with rfl | rfl | rfl <;> exact Sample.sure_unhindered _ _

end Keyvisor.ConfigCommands
