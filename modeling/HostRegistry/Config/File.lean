import HostRegistry.Config.Document
import HostRegistry.Report

/-!
The file of the configuration. Where there is none the default configuration counts.
-/

set_option autoImplicit false

namespace HostRegistry

/-- The file of the configuration. -/
structure ConfigFile where
  path : String
  deriving DecidableEq

namespace ConfigFile

/-- Reads the configuration in the file at a path. -/
def loadFrom (path : String) : Script Report (Except Error Config) := do
  match ← Files.readText path with
  | .error fault => return .error (.io ("reading config from " ++ path) fault.message)
  | .ok text =>
    match Config.read text with
    | .error fault => return .error (.configInvalid path fault.message)
    | .ok config => return .ok config

/-- The configuration that counts. -/
def load (file : ConfigFile) : Script Report (Except Error Config) := do
  if ← Script.request (.pathExists file.path) then loadFrom file.path
  else
    .emit .configMissing
    return .ok .default

/-- Makes the directory of the file. -/
def makeParent (file : ConfigFile) : Script Report (Except Error Unit) :=
  match Path.parent? file.path with
  | none => return .ok ()
  | some parent => do
    match ← Files.makeDirectories parent with
    | .error fault => return .error (.configDirectory parent fault.message)
    | .ok _ => return .ok ()

/-- Writes the configuration. -/
def save (file : ConfigFile) (config : Config) : Script Report (Except Error Unit) := do
  match ← file.makeParent with
  | .error error => return .error error
  | .ok _ =>
    match ← Files.writeText file.path config.write with
    | .error fault => return .error (.io ("writing config to " ++ file.path) fault.message)
    | .ok _ =>
      .emit (.configSaved file.path)
      return .ok ()

end ConfigFile

end HostRegistry
