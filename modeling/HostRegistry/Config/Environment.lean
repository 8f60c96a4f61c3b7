import HostRegistry.Files.Path
import HostRegistry.SortedMap

/-!
The environment, and the places it gives to the configuration and to the records of hosts.
-/

set_option autoImplicit false

namespace HostRegistry

/-- Variables by name, and the home directory of the account if it is known. -/
structure Environment where
  values : SortedMap String String
  accountHome : Option String

namespace Environment

/-- The variables that say where things lie. -/
def placeVariables : List String :=
  ["HOME", "XDG_CONFIG_HOME", "XDG_STATE_HOME", "XDG_DATA_HOME"]

/-- The value of a variable. -/
def get? (env : Environment) (name : String) : Option String := env.values.find? name

/-- A directory given by a variable; relative ones do not count. -/
def directory? (env : Environment) (name : String) : Option String :=
  (env.get? name).filter Path.isAbsolute

/-- The home directory. -/
def home? (env : Environment) : Option String :=
  ((env.get? "HOME").filter (· ≠ "")).or env.accountHome

/-- A directory given by a variable, or else one below the home directory. -/
def directoryOr? (env : Environment) (name below : String) : Option String :=
  (env.directory? name).or (env.home?.map (Path.join · below))

/-- Where the configuration lies if nothing else is said. -/
def configPath (env : Environment) : String :=
  let base := (env.directoryOr? "XDG_CONFIG_HOME" ".config").getD "."
  Path.join (Path.join base "hostinfo") "config.toml"

/-- Where the program keeps its state. -/
def stateDirectory (env : Environment) : String :=
  let base := ((env.directoryOr? "XDG_STATE_HOME" ".local/state").or
    (env.directoryOr? "XDG_DATA_HOME" ".local/share")).getD "."
  Path.join base "hostinfo"

/-- Where the records of hosts lie if nothing else is said. -/
def hostsDirectory (env : Environment) : String := Path.join env.stateDirectory "hosts"

end Environment

end HostRegistry
