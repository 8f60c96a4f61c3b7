/-!
Lines of the log.
-/

set_option autoImplicit false

namespace HostRegistry

/-- How much a line of the log matters. -/
inductive Level where
  | debug
  | info
  deriving DecidableEq

/-- The name of a level. -/
def Level.text : Level → String
  | .debug => "DEBUG"
  | .info => "INFO"

/-- A line of the log. -/
structure LogLine where
  level : Level
  message : String
  deriving DecidableEq

/-- A line that is of interest only when looking for a fault. -/
def LogLine.debug (message : String) : LogLine := ⟨.debug, message⟩

/-- A line that says what was done. -/
def LogLine.info (message : String) : LogLine := ⟨.info, message⟩

end HostRegistry
