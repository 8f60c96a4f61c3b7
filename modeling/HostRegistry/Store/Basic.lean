import HostRegistry.Error
import HostRegistry.Log
import HostRegistry.Record.Display
import HostRegistry.Script

/-!
A store: a backend that knows the record of a host, with a slot for the record seen last.

`Store.get` answers from the slot when it may, and `Store.commit` passes a record on to the backend.
The slot is filled by every call of the backend that succeeds and emptied by every one that fails.
A backend is any type with a state of its own; its reports are kept apart from those of the store.
-/

set_option autoImplicit false

namespace HostRegistry

/-- How backends with states `σ` work; they report values of `ε`. -/
class Backend (σ : Type) (ε : outParam Type) where
  load : σ → Script ε (Except Error Record × σ)
  persist : Record → σ → Script ε (Except Error Unit × σ)
  describe : σ → String

/-- What a store reports. -/
inductive StoreEvent (ε : Type) where
  | refreshing (store : String)
  | held (slot : Option Record)
  | loaded (record : Record)
  | refreshFailed (error : Error)
  | committing (store : String)
  | updated (record : Record)
  | commitFailed (error : Error)
  | backend (event : ε)

/-- The line of the log for an event, given the lines of the backend. -/
def StoreEvent.line {ε : Type} (backendLine : ε → LogLine) : StoreEvent ε → LogLine
  | .refreshing store => .debug ("Refreshing HostInfo using store " ++ store)
  | .held slot => .debug ("Old host_info: " ++ Record.displaySlot slot)
  | .loaded record => .debug ("New host_info: " ++ record.display)
  | .refreshFailed error => .debug ("Refresh failed, cache invalidated: " ++ error.message)
  | .committing store => .debug ("Committing HostInfo to store " ++ store)
  | .updated record => .debug ("HostInfo updated to: " ++ record.display)
  | .commitFailed error => .debug ("Commit failed, cache invalidated: " ++ error.message)
  | .backend event => backendLine event

/-- A backend and the record seen last. -/
structure Store (σ : Type) where
  backend : σ
  slot : Option Record

namespace Store

variable {σ ε : Type}

/-- The store of a backend of which nothing was seen. -/
def ofBackend (backend : σ) : Store σ := ⟨backend, none⟩

/-- Whether a record is in the slot. -/
def isCached (s : Store σ) : Bool := s.slot.isSome

variable [Backend σ ε]

/-- The name of the backend. -/
def describe (s : Store σ) : String := Backend.describe s.backend

/-- Asks the backend for the record. -/
def refresh (s : Store σ) : Script (StoreEvent ε) (Except Error Record × Store σ) := do
  .emit (.refreshing s.describe)
  .emit (.held s.slot)
  let (answer, backend) ← (Backend.load s.backend).mapReports .backend
  match answer with
  | .ok record =>
    .emit (.loaded record)
    return (.ok record, ⟨backend, some record⟩)
  | .error error =>
    .emit (.refreshFailed error)
    return (.error error, ⟨backend, none⟩)

/-- The record of the host; the backend is asked if the slot is empty or `force` is set. -/
def get (force : Bool) (s : Store σ) : Script (StoreEvent ε) (Except Error Record × Store σ) :=
  match force, s.slot with
  | false, some record => return (.ok record, s)
  | _, _ => s.refresh

/-- Gives a record to the backend. -/
def commit (record : Record) (s : Store σ) :
    Script (StoreEvent ε) (Except Error Unit × Store σ) := do
  .emit (.committing s.describe)
  let (answer, backend) ← (Backend.persist record s.backend).mapReports .backend
  match answer with
  | .ok _ =>
    .emit (.updated record)
    return (.ok (), ⟨backend, some record⟩)
  | .error error =>
    .emit (.commitFailed error)
    return (.error error, ⟨backend, none⟩)

end Store

/-- A backend behind one more wall: it works as the one inside. -/
structure Boxed (σ : Type) where
  inner : σ

instance {σ ε : Type} [Backend σ ε] : Backend (Boxed σ) ε where
  load b := do
    let (answer, inner) ← Backend.load b.inner
    return (answer, ⟨inner⟩)
  persist record b := do
    let (answer, inner) ← Backend.persist record b.inner
    return (answer, ⟨inner⟩)
  describe b := Backend.describe b.inner

/-- The store with its backend boxed; the slot is kept. -/
def Store.boxed {σ : Type} (s : Store σ) : Store (Boxed σ) := ⟨⟨s.backend⟩, s.slot⟩

end HostRegistry
