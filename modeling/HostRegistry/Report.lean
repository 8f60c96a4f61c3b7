import HostRegistry.Store.File

/-!
What a command reports while it runs: lines of the log, and output for its user.
-/

set_option autoImplicit false

namespace HostRegistry

/-- A piece of output with a meaning, to be laid out by the terminal. -/
inductive Notice where
  | intro (title : String)
  | heading (title : String)
  | success (message : String) (detail : Option String)
  | warning (message hint : String)
  | info (message : String)
  | field (key value : String)
  deriving DecidableEq

/-- Everything a command reports. -/
inductive Report where
  | store (event : StoreEvent FileEvent)
  | usingFile (path host : String)
  | usingMemory (host : String)
  | vacant (error : Error)
  | configMissing
  | configSaved (path : String)
  | notice (notice : Notice)
  | line (text : String)

/-- The line of the log that a report is, if it is one. -/
def Report.logLine? : Report → Option LogLine
  | .store event => some (event.line FileEvent.line)
  | .usingFile path host => some (.debug ("Using file store " ++ path ++ " for " ++ host))
  | .usingMemory host =>
    some (.debug ("No host info store for " ++ host ++ ", using in-memory store"))
  | .vacant error => some (.debug ("No existing host info: " ++ error.message))
  | .configMissing => some (.debug "Config file not found, using defaults")
  | .configSaved path => some (.info ("Configuration saved to " ++ path))
  | .notice _ => none
  | .line _ => none

end HostRegistry
