import Keyvisor.Configuration
import Keyvisor.Foundation.Host
import Keyvisor.Locations

/-!
# The sockets of the agent

Executable translation of `serve` in `keyvisor-agent/src/main.rs` up to its accept loop:
the agent's socket is taken over from the service manager or bound, the control socket is
bound, the configuration is read and the control service is started. A socket that was
bound has a guard, which removes it when the startup fails later on.

A value that a failure drops is given up here by name: `releasing` says what is given up
when the rest of a routine fails. The accept loop does not end, so the guards of an agent
that serves are not used. `connectControl` is the other side, the check that
`keyvisor-cli/src/main.rs` makes of a control socket before it connects.
-/

namespace Keyvisor.Sockets

open Foundation Foundation.Text Foundation.Host Locations
open Foundation.Program (demand)

/-- What the startup asks of its environment. -/
inductive Operation where
  | host (operation : Host.Operation)
  | inheritedSockets
  | takeUnixListener
  | localAddress (listener : Nat)
  | loadConfiguration (path : Path)
  | spawnControlService
  deriving DecidableEq, Repr

/-- What is answered to each operation. -/
def Answer : Operation → Type
  | .host operation => Host.Answer operation
  | .inheritedSockets => Nat
  | .takeUnixListener => Except IoError (Option Nat)
  | .localAddress _ => Except IoError (Option Path)
  | .loadConfiguration _ => Except Configuration.ConfigError Configuration.Config
  | .spawnControlService => Except IoError Unit

abbrev Action := Program Operation Answer

abbrev Routine (ε : Type) := ExceptT ε Action

def inspect (path : Path) : Action (Except IoError Metadata) := Program.call (Operation.host (.inspect path))

def createDirectories (path : Path) : Action (Except IoError Unit) :=
  Program.call (Operation.host (.createDirectories path))

def setPermissions (path : Path) (mode : Nat) : Action (Except IoError Unit) :=
  Program.call (Operation.host (.setPermissions path mode))

def bind (path : Path) : Action (Except Refusal Nat) := Program.call (Operation.host (.bind path))

def listen (listener : Nat) : Action (Except IoError Unit) := Program.call (Operation.host (.listen listener))

def connect (path : Path) : Action (Except IoError Unit) := Program.call (Operation.host (.connect path))

def removeFile (path : Path) : Action (Except IoError Unit) := Program.call (Operation.host (.removeFile path))

def close (listener : Nat) : Action Unit := Program.call (Operation.host (.close listener))

/-- An outcome that is looked at before it counts as a failure. -/
def observe {ε α : Type} (action : Action α) : Routine ε α := liftM action

/-- The text of an operating-system error after what was attempted. -/
def attempted (what : String) (error : IoError) : String := what ++ ": " ++ error.text

/-- What was obtained before is given up when the rest fails. -/
def releasing {ε α : Type} (release : Action Unit) (rest : Routine ε α) : Routine ε α := do
  match ← observe rest.run with
  | .ok value => return value
  | .error error => do
    observe release
    throw error

/-! ## Guards -/

/-- `SocketGuard`: the path and the identity of a socket that this program made. -/
structure SocketGuard where
  path : Path
  identity : Identity
  deriving DecidableEq, Repr

/-- `SocketGuard::drop`: device and inode are compared, so that a replacement at the same
path is not unlinked. -/
def dropGuard (guard : SocketGuard) : Action Unit := do
  match ← inspect guard.path with
  | .ok metadata =>
    if metadata.identity = guard.identity then do
      let _ ← removeFile guard.path
      return ()
    else return ()
  | .error _ => return ()

/-- The guard is dropped before the listener. -/
def dropBound (listener : Nat) (guard : Option SocketGuard) : Action Unit := do
  match guard with
  | some guard => do
    dropGuard guard
    close listener
  | none => close listener

/-! ## Directories -/

/-- The error for a directory that others may use. -/
def notPrivate : IoError := ⟨.other, "agent socket directory must already be private"⟩

/-- An existing directory is not changed, because it may be somebody else's. -/
def requirePrivate (path : Path) : Except IoError Metadata → Routine IoError Unit
  | .ok metadata =>
    if metadata.kind ≠ .directory ∨ metadata.mode &&& 0o077 ≠ 0 then throw notPrivate else return ()
  | .error error =>
    if error.kind = .notFound then do
      demand id (createDirectories path)
      demand id (setPermissions path 0o700)
    else throw error

/-- `ensure_private_directory` of the agent. -/
def ensurePrivateDirectory (path : Path) : Routine IoError Unit := do
  let found ← observe (inspect path)
  requirePrivate path found

/-! ## Binding -/

/-- `UnixListener::bind` of the standard library: the socket is bound and then listened on.
It is closed when that fails, and its node stays. -/
def bindListener (path : Path) : Action (Except Refusal Nat) := do
  match ← bind path with
  | .ok listener =>
    match ← listen listener with
    | .ok _ => return .ok listener
    | .error error => do
      close listener
      -- for a Unix socket listen(2) never reports an address in use
      return .error ⟨false, error⟩
  | .error refusal => return .error refusal

/-- The listener is dropped when its socket cannot be protected. -/
def finishSocketBind (path : Path) (listener : Nat) : Routine String Nat :=
  releasing (close listener) do
    demand (attempted "cannot protect the agent socket") (setPermissions path 0o600)
    return listener

/-- Something that is not a socket is not replaced. -/
def requireSocket (metadata : Metadata) : Except String Unit :=
  if metadata.kind ≠ .socket then .error "agent socket path exists and is not a Unix socket" else .ok ()

/-- A socket that accepts a connection is in use. -/
def requireDeserted (connected : Except IoError Unit) : Except String Unit :=
  if connected.isOk then .error "another Keyvisor agent is already running" else .ok ()

/-- A socket that nobody answers at is stale and replaced. -/
def replaceStale (path : Path) : Routine String Nat := do
  let metadata ← demand (attempted "cannot inspect existing agent socket") (inspect path)
  requireSocket metadata
  let connected ← observe (connect path)
  requireDeserted connected
  demand (attempted "cannot remove stale agent socket") (removeFile path)
  let listener ← demand (fun refusal : Refusal => attempted "cannot bind the agent socket" refusal.error)
    (bindListener path)
  finishSocketBind path listener

/-- `bind_socket`. -/
def bindSocket (path : Path) : Routine String Nat := do
  match ← observe (bindListener path) with
  | .ok listener => finishSocketBind path listener
  | .error refusal =>
    if refusal.inUse then replaceStale path
    else throw (attempted "cannot bind the agent socket" refusal.error)

/-- The listener with the guard of its socket. -/
def guarded (path : Path) (kind : String) : Routine String (Nat × SocketGuard) := do
  let listener ← bindSocket path
  releasing (close listener) do
    let metadata ← demand (attempted ("cannot inspect the " ++ kind ++ " socket")) (inspect path)
    return (listener, ⟨path, metadata.identity⟩)

/-- `bind_guarded_socket`. -/
def bindGuardedSocket (path : Path) : Routine String (Nat × SocketGuard) := do
  let parent ← (match path.parent with
    | some parent => .ok parent
    | none => .error "control socket path has no parent directory" : Except String Path)
  ExceptT.adapt (attempted "cannot prepare the control socket directory") (ensurePrivateDirectory parent)
  guarded path "control"

/-! ## Activation -/

/-- Socket activation is not trusted implicitly. -/
def checkAddress (path : Path) (address : Option Path) : Except String Unit :=
  if address ≠ some path then .error "activated Unix socket does not match KEYVISOR_AGENT_SOCKET" else .ok ()

/-- The socket is the user's own and nobody else's to use. -/
def ownerOnly (uid : Nat) (metadata : Metadata) : Bool :=
  metadata.kind == .socket && metadata.mode &&& 0o777 == 0o600 && metadata.uid == uid

/-- The checks of an inherited socket. -/
def checkActivated (uid : Nat) (metadata : Metadata) : Except String Unit :=
  if ownerOnly uid metadata then .ok () else .error "activated Unix socket must be owner-owned with mode 0600"

/-- At most one socket is inherited. -/
def checkInherited (count : Nat) : Except String Unit :=
  if 1 < count then .error "systemd passed more than one socket; refusing ambiguous activation" else .ok ()

/-- An inherited socket has no guard: it belongs to the service manager. -/
def activatedOrBoundListener (uid : Nat) (path : Path) : Routine String (Nat × Option SocketGuard) := do
  let count ← observe (Program.call Operation.inheritedSockets)
  checkInherited count
  let inherited ← demand (attempted "cannot accept the activated Unix socket") (Program.call Operation.takeUnixListener)
  match inherited with
  | some listener => releasing (close listener) do
      let address ← demand (attempted "cannot inspect the activated Unix socket")
        (Program.call (Operation.localAddress listener))
      checkAddress path address
      let metadata ← demand (attempted "cannot inspect the activated Unix socket") (inspect path)
      checkActivated uid metadata
      return (listener, none)
  | none => do
      let (listener, guard) ← guarded path "agent"
      return (listener, some guard)

/-! ## Starting -/

/-- What the agent serves with. -/
structure Serving where
  listener : Nat
  guard : Option SocketGuard
  controlListener : Nat
  controlGuard : SocketGuard
  config : Configuration.Config

/-- The part of `serve` after the agent's own socket. -/
def prepareControl (environment : Environment) (listener : Nat) (guard : Option SocketGuard) :
    Routine String Serving := do
  let controlPath ← defaultControlSocketPath environment
  let (controlListener, controlGuard) ← bindGuardedSocket controlPath
  releasing (dropBound controlListener (some controlGuard)) do
    let configPath ← defaultConfigPath environment
    let config ← demand (fun error : Configuration.ConfigError => "cannot load configuration: " ++ error.message)
      (Program.call (Operation.loadConfiguration configPath))
    let _ ← defaultStoreDirectory environment
    let _ ← defaultHistoryPath environment
    demand (attempted "cannot start the control service") (Program.call Operation.spawnControlService)
    return ⟨listener, guard, controlListener, controlGuard, config⟩

/-- `serve` up to the loop that accepts connections. -/
def serve (uid : Nat) (environment : Environment) (socketPath : Path) : Routine String Serving := do
  let parent ← (match socketPath.parent with
    | some parent => .ok parent
    | none => .error "agent socket path has no parent directory" : Except String Path)
  ExceptT.adapt (attempted "cannot prepare the agent socket directory") (ensurePrivateDirectory parent)
  let (listener, guard) ← activatedOrBoundListener uid socketPath
  releasing (dropBound listener guard) (prepareControl environment listener guard)

/-- `keyvisor-agent serve` until it accepts connections. -/
def start (uid : Nat) (environment : Environment) : Routine String Serving := do
  let socketPath ← defaultSocketPath environment
  serve uid environment socketPath

/-! ## The other side -/

/-- The checks of `connect_control` before it connects. -/
def checkControlSocket (uid : Nat) (metadata : Metadata) : Except String Unit :=
  if metadata.kind ≠ .socket then .error "control socket path is not a Unix socket"
  else if metadata.mode &&& 0o777 ≠ 0o600 ∨ metadata.uid ≠ uid then
    .error "control socket must be owned by the current user with mode 0600"
  else .ok ()

/-- `connect_control` of the command-line tool, without its timeouts. -/
def connectControl (uid : Nat) (environment : Environment) : Routine String Unit := do
  let path ← controlSocketPath environment
  let metadata ← demand (attempted "agent is not running") (inspect path)
  checkControlSocket uid metadata
  demand (attempted "cannot connect to the agent control socket") (connect path)

end Keyvisor.Sockets
