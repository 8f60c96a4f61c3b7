/-!
The commands.
-/

set_option autoImplicit false

namespace HostRegistry

/-- How a record is shown. -/
inductive ShowFormat where
  | table
  | json
  | plain
  deriving DecidableEq

/-- What to do with the labels of a host. -/
inductive LabelAction where
  | get (family : String)
  | add (labels : List String)
  | remove (labels : List String)
  | set (family value : String)
  deriving DecidableEq

/-- What to do with the attributes of a host. -/
inductive AttributeAction where
  | get (key : String)
  | set (entries : List (String × String))
  | unset (keys : List String)
  deriving DecidableEq

/-- The commands about a host. -/
inductive HostCommand where
  | create (labels : List String) (attributes : List (String × String)) (force : Bool)
  | «show» (format : ShowFormat)
  | label (action : LabelAction)
  | attribute (action : AttributeAction)
  deriving DecidableEq

/-- What to do with the configuration. -/
inductive ConfigAction where
  | «show»
  | path
  | init (force : Bool)
  | set (key value : String)
  deriving DecidableEq

/-- All commands. The configuration is shown if nothing else is asked. -/
inductive Command where
  | host (command : HostCommand)
  | config (action : Option ConfigAction)
  deriving DecidableEq

end HostRegistry
