import HostRegistry.Config.Basic
import HostRegistry.Report
import HostRegistry.Store.Memory

/-!
Hosts, and the stores of their records.

A host is referred to with a store of its own, or by its name alone. A bare name gets a store in
memory that is empty and lives no longer than the command.
-/

set_option autoImplicit false

namespace HostRegistry

/-- The backends that a host can have. -/
inductive HostBackend where
  | file (backend : FileBackend)
  | memory (backend : MemoryBackend)

instance : Backend HostBackend FileEvent where
  load
    | .file b => do
      let (answer, b) ← Backend.load b
      return (answer, .file b)
    | .memory b => do
      let (answer, b) ← (Backend.load b).mapReports Empty.elim
      return (answer, .memory b)
  persist record
    | .file b => do
      let (answer, b) ← Backend.persist record b
      return (answer, .file b)
    | .memory b => do
      let (answer, b) ← (Backend.persist record b).mapReports Empty.elim
      return (answer, .memory b)
  describe
    | .file b => b.describe
    | .memory b => b.describe

/-- The store of a host. -/
abbrev HostStore : Type := Store HostBackend

/-- A reference to a host. -/
inductive HostReference where
  | withStore (host : String) (store : HostStore)
  | bare (host : String)

namespace HostReference

/-- The name of the host. -/
def host : HostReference → String
  | .withStore host _ => host
  | .bare host => host

/-- Whether the reference comes with a store. -/
def hasStore : HostReference → Bool
  | .withStore .. => true
  | .bare _ => false

/-- The reference in one line. -/
def display : HostReference → String
  | .withStore host _ => "Descriptor \x7b hostname: " ++ Text.quoted host ++ ", .. \x7d"
  | .bare host => "Hostname(" ++ Text.quoted host ++ ")"

/-- The store of the host. -/
def resolve : HostReference → Script Report HostStore
  | .withStore _ store => return store
  | .bare host => do
    .emit (.usingMemory host)
    return .ofBackend (.memory ⟨.empty⟩)

/-- The reference for a host as the configuration wants it. A directory that is given counts more
than the one of the configuration, and that more than the default. -/
def ofConfig (config : Config) (defaultDirectory host : String) (directory : Option String) :
    Script Report HostReference :=
  match config.backend with
  | .file => do
    let backend := FileBackend.forHost
      ((directory.or config.directory).getD defaultDirectory) host
    .emit (.usingFile backend.path host)
    return .withStore host (.ofBackend (.file backend))
  | .memory => return .bare host

end HostReference

/-- Names become file names, so one that is empty, hidden or path-like names no host. -/
def isHostName (host : String) : Bool :=
  host.toList ≠ [] && host.toList.head? ≠ some '.' &&
    host.toList.all fun c => c ≠ '/' && c ≠ '\\'

/-- Which host a command is about, and where its record lies. -/
structure Target where
  host : Option String
  directory : Option String

/-- The reference for a target. -/
def Target.reference (target : Target) (config : Config) (defaultDirectory : String) :
    Script Report (Except Error HostReference) :=
  match target.host with
  | none => return .error (.user "No host given. Pass --host <name> or set HOSTINFO_HOST")
  | some host =>
    if isHostName host then do
      return .ok (← HostReference.ofConfig config defaultDirectory host target.directory)
    else return .error (.user ("Invalid hostname: '" ++ host ++ "'"))

end HostRegistry
