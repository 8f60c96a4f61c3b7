import HostRegistry.Record.Document

/-!
Everything a command can fail with.

An error names its cause; `Error.message` is what is said about it and `Error.hint` what to do, where
something can be done. A host without a record is told apart from one whose record cannot be read.
-/

set_option autoImplicit false

namespace HostRegistry

/-- The causes of failure. -/
inductive Error where
  | load (store reason : String)
  | notFound (store : String)
  | persist (store reason : String)
  | unsupportedVersion (version : Nat)
  | hostExists (host : String)
  | configInvalid (path reason : String)
  | configDirectory (path reason : String)
  | invalidKey (key : String)
  | io (context reason : String)
  | json (fault : Json.Fault)
  | toml (reason : String)
  | user (message : String)
  deriving DecidableEq

namespace Error

/-- The error of a text that is no stored document. -/
def ofDocument : DocumentError → Error
  | .json fault => .json fault
  | .unsupportedVersion version => .unsupportedVersion version

/-- The words for an error. -/
def message : Error → String
  | .load store reason => "Failed to load host info from " ++ store ++ ": " ++ reason
  | .notFound store => "Failed to load host info from " ++ store ++ ": no host info recorded"
  | .persist store reason => "Failed to persist host info to " ++ store ++ ": " ++ reason
  | .unsupportedVersion version =>
    "Unsupported host info serializer version: " ++ toString version
  | .hostExists host => "Host info already exists: " ++ host
  | .configInvalid path reason => "Invalid configuration at " ++ path ++ ": " ++ reason
  | .configDirectory path reason =>
    "Failed to create config directory " ++ path ++ ": " ++ reason
  | .invalidKey key => "Unknown configuration key: " ++ key
  | .io context _ => "IO error: " ++ context
  | .json fault => "JSON error: " ++ fault.message
  | .toml reason => "TOML parse error: " ++ reason
  | .user message => message

/-- What can be done about an error. -/
def hint? : Error → Option String
  | .notFound _ => some "Run: hostinfo --host <name> create, or check --store-dir"
  | .load .. =>
    some "Fix the host info file, or replace it with: hostinfo --host <name> create --force"
  | .hostExists _ => some "Use --force to overwrite"
  | .invalidKey _ => some "Valid keys: general.log_format, store.backend, store.dir"
  | _ => none

/-- Whether there is no record at all, as opposed to one that cannot be read. -/
def isNotFound : Error → Bool
  | .notFound _ => true
  | _ => false

end Error

end HostRegistry
