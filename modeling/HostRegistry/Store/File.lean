import HostRegistry.Store.Basic

/-!
A backend that keeps the record in a file of its own, as a stored document.

A record is first written to a temporary file beside the real one, which then takes its place, so at
no time the real file holds half a document.
-/

set_option autoImplicit false

namespace HostRegistry

/-- A backend over the file at a path. -/
structure FileBackend where
  path : String
  deriving DecidableEq

/-- What a file backend reports. -/
inductive FileEvent where
  | read (path : String)
  | wrote (path : String)

/-- The line of the log for an event. -/
def FileEvent.line : FileEvent → LogLine
  | .read path => .debug ("Read host info from " ++ path)
  | .wrote path => .debug ("Wrote host info to " ++ path)

namespace FileBackend

/-- The backend for a host in a directory. -/
def forHost (directory host : String) : FileBackend := ⟨Path.join directory (host ++ ".json")⟩

/-- The name of the backend. -/
def describe (b : FileBackend) : String := "FileBackend(" ++ b.path ++ ")"

/-- The file that is written before it takes the place of the real one. -/
def temporary (b : FileBackend) : String :=
  Path.withFileName b.path ((Path.fileName? b.path).getD "" ++ ".tmp")

/-- Reads the record. A file that is not there is a host without a record. -/
def load (b : FileBackend) : Script FileEvent (Except Error Record) := do
  match ← Files.readText b.path with
  | .error .notFound => return .error (.notFound b.describe)
  | .error fault => return .error (.load b.describe fault.message)
  | .ok text =>
    match Record.decode text with
    | .error error => return .error (.load b.describe (Error.ofDocument error).message)
    | .ok record =>
      .emit (.read b.path)
      return .ok record

/-- Makes the directory of the file. -/
def makeParent (b : FileBackend) : Script FileEvent (Except FileFault Unit) :=
  match Path.parent? b.path with
  | some parent => Files.makeDirectories parent
  | none => return .ok ()

/-- Writes a document beside the file and puts it in its place. -/
def replace (b : FileBackend) (text : String) : Script FileEvent (Except FileFault Unit) := do
  match ← b.makeParent with
  | .error fault => return .error fault
  | .ok _ =>
    match ← Files.writeText b.temporary text with
    | .error fault => return .error fault
    | .ok _ =>
      match ← Script.request (.moveFile b.temporary b.path) with
      | .ok _ => return .ok ()
      | .error fault =>
        let _ ← Script.request (.removeFile b.temporary)
        return .error fault

/-- Writes the record. -/
def persist (record : Record) (b : FileBackend) : Script FileEvent (Except Error Unit) := do
  match ← b.replace record.encode with
  | .error fault => return .error (.persist b.describe fault.message)
  | .ok _ =>
    .emit (.wrote b.path)
    return .ok ()

/-- Whether there is anything at the path. -/
def hasFile (b : FileBackend) : Script FileEvent Bool := Script.request (.pathExists b.path)

instance : Backend FileBackend FileEvent where
  load b := do return (← b.load, b)
  persist record b := do return (← b.persist record, b)
  describe := describe

end FileBackend

end HostRegistry
