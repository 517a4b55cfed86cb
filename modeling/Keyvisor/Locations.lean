import Keyvisor.Foundation.Path
import Keyvisor.Foundation.Text

/-!
# Where the programs keep their files

Executable translation of the functions that name files in `keyvisor-cli/src/main.rs`
and in `keyvisor-agent/src/main.rs`. The two programs look at the same variables with
code of their own, so that they meet at the same files is something to prove.
-/

namespace Keyvisor.Locations

open Foundation Foundation.Text

/-- The variables of a process, by name. -/
abbrev Environment := String → Option Bytes

/-- `env::var_os(name).filter(|value| !value.is_empty())` -/
def nonEmpty (environment : Environment) (name : String) : Option Bytes :=
  (environment name).filter fun value => !value.isEmpty

/-! ## The command-line tool -/

/-- `home_directory`. -/
def homeDirectory (environment : Environment) : Except String Path :=
  match environment "HOME" with
  | some home => .ok (Path.parse home)
  | none => .error "HOME is not set; cannot locate Keyvisor data"

/-- `data_directory`. -/
def dataDirectory (environment : Environment) : Except String Path :=
  match nonEmpty environment "XDG_DATA_HOME" with
  | some dataHome => .ok ((Path.parse dataHome).join (utf8 "me.nexryai.keyvisor"))
  | none => (homeDirectory environment).map fun home => home.join (utf8 ".local/share/me.nexryai.keyvisor")

/-- `config_path`. -/
def configPath (environment : Environment) : Except String Path :=
  match nonEmpty environment "XDG_CONFIG_HOME" with
  | some configHome => .ok ((Path.parse configHome).join (utf8 "me.nexryai.keyvisor/config"))
  | none => (homeDirectory environment).map fun home => home.join (utf8 ".config/me.nexryai.keyvisor/config")

/-- `store_directory`. -/
def storeDirectory (environment : Environment) : Except String Path :=
  (dataDirectory environment).map fun path => path.join (utf8 "keys")

/-- `history_path`. -/
def historyPath (environment : Environment) : Except String Path :=
  (dataDirectory environment).map fun path => path.join (utf8 "history.bin")

/-- `control_socket_path`. -/
def controlSocketPath (environment : Environment) : Except String Path :=
  match nonEmpty environment "KEYVISOR_CONTROL_SOCKET" with
  | some path => .ok (Path.parse path)
  | none =>
    match environment "XDG_RUNTIME_DIR" with
    | some runtime => .ok ((Path.parse runtime).join (utf8 "keyvisor/control.sock"))
    | none => .error "XDG_RUNTIME_DIR is not set"

/-! ## The agent -/

/-- `default_data_directory`. -/
def defaultDataDirectory (environment : Environment) : Except String Path :=
  match nonEmpty environment "XDG_DATA_HOME" with
  | some dataHome => .ok ((Path.parse dataHome).join (utf8 "me.nexryai.keyvisor"))
  | none =>
    match environment "HOME" with
    | some home => .ok (((Path.parse home).join (utf8 ".local/share")).join (utf8 "me.nexryai.keyvisor"))
    | none => .error "neither XDG_DATA_HOME nor HOME is set; cannot locate the key store"

/-- `default_store_directory`. -/
def defaultStoreDirectory (environment : Environment) : Except String Path :=
  (defaultDataDirectory environment).map fun path => path.join (utf8 "keys")

/-- `default_history_path`. -/
def defaultHistoryPath (environment : Environment) : Except String Path :=
  (defaultDataDirectory environment).map fun path => path.join (utf8 "history.bin")

/-- `default_config_path`. -/
def defaultConfigPath (environment : Environment) : Except String Path :=
  match nonEmpty environment "XDG_CONFIG_HOME" with
  | some configHome => .ok ((Path.parse configHome).join (utf8 "me.nexryai.keyvisor/config"))
  | none =>
    match environment "HOME" with
    | some home => .ok ((Path.parse home).join (utf8 ".config/me.nexryai.keyvisor/config"))
    | none => .error "HOME is not set; cannot locate configuration"

/-- A socket of the agent. A variable may name another one. -/
def runtimeSocket (environment : Environment) (override name kind : String) : Except String Path :=
  match nonEmpty environment override with
  | some path => .ok (Path.parse path)
  | none =>
    match environment "XDG_RUNTIME_DIR" with
    | some runtime => .ok (((Path.parse runtime).join (utf8 "keyvisor")).join (utf8 name))
    | none => .error ("XDG_RUNTIME_DIR is not set; cannot locate the " ++ kind ++ " socket")

/-- `default_socket_path`. -/
def defaultSocketPath (environment : Environment) : Except String Path :=
  runtimeSocket environment "KEYVISOR_AGENT_SOCKET" "agent.sock" "agent"

/-- `default_control_socket_path`. -/
def defaultControlSocketPath (environment : Environment) : Except String Path :=
  runtimeSocket environment "KEYVISOR_CONTROL_SOCKET" "control.sock" "control"

/-! ## Meeting at the same files -/

/-- The two programs find the same path, or neither finds one. -/
def Agree (tool agent : Except String Path) : Prop := tool.toOption = agent.toOption

/-- Paths that agree lead to paths that agree. -/
theorem Agree.map {tool agent : Except String Path} (agree : Agree tool agent) (next : Path → Path) :
    Agree (tool.map next) (agent.map next) := by
  unfold Agree at *
  rcases tool with message | path <;> rcases agent with other | found
  · rfl
  · cases agree
  · cases agree
  · cases agree
    rfl

/-- Joining in two steps or in one finds the same directory. -/
theorem data_directories_agree (environment : Environment) :
    Agree (dataDirectory environment) (defaultDataDirectory environment) := by
  unfold dataDirectory defaultDataDirectory homeDirectory
  cases nonEmpty environment "XDG_DATA_HOME" with
  | some dataHome => rfl
  | none =>
    cases environment "HOME" with
    | none => rfl
    | some home =>
      have joined : ((Path.parse home).join (utf8 ".local/share")).join (utf8 "me.nexryai.keyvisor") =
          (Path.parse home).join (utf8 ".local/share" ++ 47 :: utf8 "me.nexryai.keyvisor") :=
        Path.join_join _ (by decide +kernel) (by decide +kernel) (by decide +kernel)
      have spelled : utf8 ".local/share" ++ 47 :: utf8 "me.nexryai.keyvisor" =
          utf8 ".local/share/me.nexryai.keyvisor" := by decide +kernel
      simp only [joined, spelled]
      rfl

/-- Both programs look for the configuration at the same path. -/
theorem config_paths_agree (environment : Environment) :
    Agree (configPath environment) (defaultConfigPath environment) := by
  unfold configPath defaultConfigPath homeDirectory
  cases nonEmpty environment "XDG_CONFIG_HOME" with
  | some configHome => rfl
  | none => cases environment "HOME" <;> rfl

/-- Both programs look for the control socket at the same path. -/
theorem control_sockets_agree (environment : Environment) :
    Agree (controlSocketPath environment) (defaultControlSocketPath environment) := by
  unfold controlSocketPath defaultControlSocketPath runtimeSocket
  cases nonEmpty environment "KEYVISOR_CONTROL_SOCKET" with
  | some path => rfl
  | none =>
    cases environment "XDG_RUNTIME_DIR" with
    | none => rfl
    | some runtime =>
      have joined : ((Path.parse runtime).join (utf8 "keyvisor")).join (utf8 "control.sock") =
          (Path.parse runtime).join (utf8 "keyvisor" ++ 47 :: utf8 "control.sock") :=
        Path.join_join _ (by decide +kernel) (by decide +kernel) (by decide +kernel)
      have spelled : utf8 "keyvisor" ++ 47 :: utf8 "control.sock" = utf8 "keyvisor/control.sock" := by decide +kernel
      simp only [joined, spelled]
      rfl

/-! ## Keeping the files apart -/

/-- The key records and the history are side by side in the data directory. -/
theorem names_of_data {environment : Environment} {store history : Path}
    (stored : storeDirectory environment = .ok store) (recorded : historyPath environment = .ok history) :
    ∃ before, store.names = before ++ [utf8 "keys"] ∧ history.names = before ++ [utf8 "history.bin"] := by
  unfold storeDirectory at stored
  unfold historyPath at recorded
  cases found : dataDirectory environment with
  | error message =>
    rw [found] at stored
    cases stored
  | ok data =>
    rw [found] at stored recorded
    cases stored
    cases recorded
    exact ⟨data.names, Path.names_join _ (by decide +kernel) (by decide +kernel),
      Path.names_join _ (by decide +kernel) (by decide +kernel)⟩

/-- The configuration has a directory with the name of the program. -/
theorem names_of_config {environment : Environment} {config : Path} (located : configPath environment = .ok config) :
    ∃ before, config.names = before ++ [utf8 "me.nexryai.keyvisor"] ++ [utf8 "config"] := by
  unfold configPath homeDirectory at located
  cases chosen : nonEmpty environment "XDG_CONFIG_HOME" with
  | some configHome =>
    rw [chosen] at located
    cases located
    have pieces : Path.pieces (utf8 "me.nexryai.keyvisor/config") = [utf8 "me.nexryai.keyvisor", utf8 "config"] := by
      decide +kernel
    refine ⟨(Path.parse configHome).names, ?_⟩
    rw [Path.names_join _ (by decide +kernel) (by decide +kernel), pieces, List.append_assoc]
    rfl
  | none =>
    rw [chosen] at located
    cases given : environment "HOME" with
    | none =>
      rw [given] at located
      cases located
    | some home =>
      simp only [given, Except.map] at located
      cases located
      have pieces : Path.pieces (utf8 ".config/me.nexryai.keyvisor/config") =
          [utf8 ".config", utf8 "me.nexryai.keyvisor", utf8 "config"] := by decide +kernel
      refine ⟨(Path.parse home).names ++ [utf8 ".config"], ?_⟩
      rw [Path.names_join _ (by decide +kernel) (by decide +kernel), pieces, List.append_assoc, List.append_assoc]
      rfl

/-- In every environment the tool and the agent look for the key records, the history,
the configuration and the control socket at the same places, or both fail to. These are
places of their own: no two of the three are the same path, and neither the history nor
the configuration is in the directory whose entries are read as key records. -/
theorem programs_meet_at_the_same_files (environment : Environment) :
    Agree (storeDirectory environment) (defaultStoreDirectory environment) ∧
    Agree (historyPath environment) (defaultHistoryPath environment) ∧
    Agree (configPath environment) (defaultConfigPath environment) ∧
    Agree (controlSocketPath environment) (defaultControlSocketPath environment) ∧
    (∀ store history config, storeDirectory environment = .ok store → historyPath environment = .ok history →
      configPath environment = .ok config →
      store ≠ history ∧ store ≠ config ∧ history ≠ config ∧
        history.parent ≠ some store ∧ config.parent ≠ some store) := by
  refine ⟨(data_directories_agree environment).map _, (data_directories_agree environment).map _,
    config_paths_agree environment, control_sockets_agree environment, ?_⟩
  intro store history config stored recorded located
  obtain ⟨data, storeNames, historyNames⟩ := names_of_data stored recorded
  obtain ⟨home, configNames⟩ := names_of_config located
  have different {left right : Path} {before after : List Bytes} {first second : Bytes}
      (ends : left.names = before ++ [first]) (others : right.names = after ++ [second]) (apart : first ≠ second) :
      left ≠ right := by
    rintro rfl
    rw [ends] at others
    exact apart (List.singleton_inj.mp (List.append_inj_right' others rfl))
  refine ⟨different storeNames historyNames (by decide +kernel), different storeNames configNames (by decide +kernel),
    different historyNames configNames (by decide +kernel), ?_, ?_⟩
  · rw [Path.parent_of_names historyNames]
    intro inside
    obtain rfl := Option.some.inj inside
    simp at storeNames
  · rw [Path.parent_of_names configNames]
    intro inside
    have named : (⟨config.absolute, home ++ [utf8 "me.nexryai.keyvisor"]⟩ : Path).names =
        home ++ [utf8 "me.nexryai.keyvisor"] := rfl
    exact different named storeNames (by decide +kernel) (Option.some.inj inside)

end Keyvisor.Locations
