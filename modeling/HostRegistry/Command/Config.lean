import HostRegistry.Command.Basic
import HostRegistry.Config.File

/-!
Running the commands about the configuration.

`Config.set` is the only way to change a value; `ConfigAction.run` shows, resets or changes the
configuration that is in force.
-/

set_option autoImplicit false

namespace HostRegistry

/-- The keys of the configuration. -/
inductive ConfigKey where
  | logFormat
  | backend
  | directory
  deriving DecidableEq

/-- The key with a name. -/
def ConfigKey.ofName? (name : String) : Option ConfigKey :=
  if name = "general.log_format" then some .logFormat
  else if name = "store.backend" then some .backend
  else if name = "store.dir" then some .directory
  else none

/-- The configuration with the value of a key set. -/
def Config.set (config : Config) (key value : String) : Except Error Config :=
  match ConfigKey.ofName? key with
  | none => .error (.invalidKey key)
  | some .logFormat =>
    if value = "text" ∨ value = "json" then .ok { config with logFormat := value }
    else .error (.user ("Invalid log format: " ++ value ++ ". Use text or json"))
  | some .backend =>
    match StoreKind.ofName? value with
    | some kind => .ok { config with backend := kind }
    | none => .error (.user (StoreKind.unknownMessage value))
  | some .directory => .ok { config with directory := some value }

namespace ConfigAction

/-- Writes the default configuration. Without `force` a file that is there is kept. -/
def runInit (file : ConfigFile) (force : Bool) : Script Report (Except Error Unit) := do
  let present ← Script.request (.pathExists file.path)
  if present && !force then
    .emit (.notice (.warning ("Config already exists at " ++ file.path) "Use --force to overwrite"))
    return .ok ()
  else
    match ← file.save .default with
    | .error error => return .error error
    | .ok _ =>
      .emit (.notice (.success "Configuration initialized" (some file.path)))
      return .ok ()

/-- Writes the configuration with the value of a key set. -/
def runSet (file : ConfigFile) (config : Config) (key value : String) :
    Script Report (Except Error Unit) := do
  match config.set key value with
  | .error error => return .error error
  | .ok changed =>
    match ← file.save changed with
    | .error error => return .error error
    | .ok _ =>
      .emit (.notice (.success ("Set " ++ key ++ " = " ++ value) none))
      return .ok ()

/-- Runs a command about the configuration in a file; `config` is the one in force. -/
def run (file : ConfigFile) (config : Config) :
    Option ConfigAction → Script Report (Except Error Unit)
  | none | some .show => do
    .emit (.line config.write)
    return .ok ()
  | some .path => do
    .emit (.line file.path)
    return .ok ()
  | some (.init force) => runInit file force
  | some (.set key value) => runSet file config key value

end ConfigAction

end HostRegistry
