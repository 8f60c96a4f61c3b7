import HostRegistry.Command.Basic
import HostRegistry.Host
import HostRegistry.Record.Edits
import HostRegistry.Record.Sheet

/-!
Running the commands about a host.

Every command finds the store of its host first. `create` writes a new record, the others start from
the one that is there; `show` and the two `get` actions only read, and the other actions write the
edited record back. `HostCommand.run` is the whole of it.
-/

set_option autoImplicit false

namespace HostRegistry

/-- Where a host command finds hosts: the target, the configuration, and the directory of records
where neither of them names one. -/
structure HostContext where
  target : Target
  config : Config
  defaultDirectory : String

namespace HostCommand

/-- A script of the commands about hosts. -/
abbrev Result : Type := Script Report (Except Error Unit)

/-- Makes a report for each item of a list. -/
def emitAll {α : Type} (report : α → Report) : List α → Script Report Unit
  | [] => return ()
  | item :: rest => do
    .emit (report item)
    emitAll report rest

/-- Makes a piece of output. -/
def tell (notice : Notice) : Script Report Unit := .emit (.notice notice)

/-- A dash in place of an empty text. -/
def orDash (text : String) : String := if text = "" then "-" else text

/-! ## Showing -/

/-- What is shown of a record as a table. -/
def tableReports (host : String) (r : Record) : List Report :=
  [.notice (.intro host), .notice (.field "board" (orDash r.board)),
      .notice (.field "os" (orDash r.os)), .notice (.field "build" (r.build?.getD "-")),
      .notice (.field "pools" (orDash (", ".intercalate r.pools))), .notice (.heading "Labels")] ++
    (if r.labels = [] then [.notice (.info "No labels")] else r.labels.map fun l => .line ("  " ++ l)) ++
    [.notice (.heading "Attributes")] ++
    if r.attributes.entries = [] then [.notice (.info "No attributes")]
    else r.attributes.entries.map fun e => .notice (.field e.1 e.2)

/-- What is shown of a record. -/
def showReports (host : String) (r : Record) : ShowFormat → List Report
  | .table => tableReports host r
  | .json => [.line (r.sheet host)]
  | .plain => r.labels.map .line

/-! ## Editing -/

/-- What an action that edits makes of a record, and the output about arguments that changed
nothing; none for the actions that only read. -/
def editLabels (r : Record) : LabelAction → Option (Record × List Notice)
  | .get _ => none
  | .add labels =>
    let (edited, present) := r.addLabels labels
    some (edited, present.map (.warning "Label already present"))
  | .remove labels =>
    let (edited, absent) := r.removeLabels labels
    some (edited, absent.map (.warning "Label not present"))
  | .set family value => some (r.setValue family value, [])

/-- What an action that edits makes of a record, and the output about arguments that changed
nothing; none for the actions that only read. -/
def editAttributes (r : Record) : AttributeAction → Option (Record × List Notice)
  | .get _ => none
  | .set entries => some (r.setAttributes entries, [])
  | .unset keys =>
    let (edited, absent) := r.removeAttributes keys
    some (edited, absent.map (.warning "Attribute not set"))

/-- The answer of an action that only reads labels. -/
def readLabels (r : Record) : LabelAction → List Report
  | .get family => [.line (r.valueOf family)]
  | _ => []

/-- The answer of an action that only reads attributes. -/
def readAttributes (r : Record) : AttributeAction → Except Error (List Report)
  | .get key =>
    match r.attributes.find? key with
    | some value => .ok [.line value]
    | none => .error (.user ("Attribute not set: " ++ key))
  | _ => .ok []

/-- Writes an edited record back and says so. -/
def finish (persistent : Bool) (store : HostStore) (edited : Record) (summary : String) :
    Result := do
  match ← (store.commit edited).mapReports .store with
  | (.error error, _) => return .error error
  | (.ok _, _) =>
    tell (.success summary none)
    if !persistent then tell (.warning "Changes not persisted" "store.backend is memory")
    return .ok ()

/-- The output after an edit of labels. -/
def labelSummary (r : Record) : String :=
  "Labels updated (" ++ toString r.labels.length ++ " total)"

/-- The output after an edit of attributes. -/
def attributeSummary (r : Record) : String :=
  "Attributes updated (" ++ toString r.attributes.size ++ " total)"

/-! ## The commands -/

/-- Reads the record of a host and goes on with its reference, its store and the record. -/
def withRecord (context : HostContext)
    (next : HostReference → HostStore → Record → Result) : Result := do
  match ← context.target.reference context.config context.defaultDirectory with
  | .error error => return .error error
  | .ok reference =>
    let store ← reference.resolve
    match ← (store.get false).mapReports .store with
    | (.error error, _) => return .error error
    | (.ok record, store) => next reference store record

/-- Shows the record of a host. -/
def runShow (context : HostContext) (format : ShowFormat) : Result :=
  withRecord context fun reference _ record => do
    emitAll id (showReports reference.host record format)
    return .ok ()

/-- Reads or edits the labels of a host. -/
def runLabel (context : HostContext) (action : LabelAction) : Result :=
  withRecord context fun reference store record =>
    match editLabels record action with
    | none => do
      emitAll id (readLabels record action)
      return .ok ()
    | some (edited, notices) => do
      emitAll .notice notices
      finish reference.hasStore store edited (labelSummary edited)

/-- Reads or edits the attributes of a host. -/
def runAttribute (context : HostContext) (action : AttributeAction) : Result :=
  withRecord context fun reference store record =>
    match editAttributes record action with
    | none =>
      match readAttributes record action with
      | .error error => return .error error
      | .ok reports => do
        emitAll id reports
        return .ok ()
    | some (edited, notices) => do
      emitAll .notice notices
      finish reference.hasStore store edited (attributeSummary edited)

/-- Refuses a host that has a record, or has one that cannot be read. -/
def checkVacant (host : String) (store : HostStore) :
    Script Report (Except Error HostStore) := do
  match ← (store.get true).mapReports .store with
  | (.ok _, _) => return .error (.hostExists host)
  | (.error error, store) =>
    if error.isNotFound then
      .emit (.vacant error)
      return .ok store
    else return .error error

/-- Writes a new record for a host. Without `force` the host must have none. -/
def runCreate (context : HostContext) (labels : List String)
    (attributes : List (String × String)) (force : Bool) : Result := do
  match ← context.target.reference context.config context.defaultDirectory with
  | .error error => return .error error
  | .ok reference =>
    let store ← reference.resolve
    let checked ←
      if reference.hasStore && !force then checkVacant reference.host store else pure (.ok store)
    match checked with
    | .error error => return .error error
    | .ok store =>
      match ← (store.commit (Record.ofLists labels attributes)).mapReports .store with
      | (.error error, _) => return .error error
      | (.ok _, store) =>
        tell (.success ("Created host info for " ++ reference.host) (some store.describe))
        return .ok ()

/-- Runs a command about a host. -/
def run (context : HostContext) : HostCommand → Result
  | .create labels attributes force => runCreate context labels attributes force
  | .show format => runShow context format
  | .label action => runLabel context action
  | .attribute action => runAttribute context action

end HostCommand

end HostRegistry
