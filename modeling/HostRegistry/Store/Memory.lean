import HostRegistry.Store.Basic

/-!
Backends without files: one that holds the record itself, and one that also fails when told to.
-/

set_option autoImplicit false

namespace HostRegistry

/-- A backend that holds the record. -/
structure MemoryBackend where
  record : Record
  deriving DecidableEq

namespace MemoryBackend

/-- The name of the backend. -/
def describe (_ : MemoryBackend) : String := "InMemoryBackend"

instance : Backend MemoryBackend Empty where
  load b := return (.ok b.record, b)
  persist record _ := return (.ok (), ⟨record⟩)
  describe := describe

end MemoryBackend

/-- What a switched backend does on its next calls. -/
structure Switches where
  missing : Bool
  failLoad : Bool
  failPersist : Bool
  deriving DecidableEq

/-- A backend that holds the record, fails as its switches say and counts its calls. -/
structure SwitchedBackend where
  title : String
  name : String
  record : Record
  switches : Switches
  loads : Nat
  persists : Nat

namespace SwitchedBackend

/-- The answer to a load. -/
def loadAnswer (b : SwitchedBackend) : Except Error Record :=
  if b.switches.missing then .error (.notFound b.name)
  else if b.switches.failLoad then .error (.load b.name "source unreachable")
  else .ok b.record

/-- The answer to a persist. -/
def persistAnswer (b : SwitchedBackend) : Except Error Unit :=
  if b.switches.failPersist then .error (.persist b.name "write rejected") else .ok ()

/-- The backend after a persist; one that fails keeps the old record. -/
def afterPersist (record : Record) (b : SwitchedBackend) : SwitchedBackend :=
  { b with
    record := if b.switches.failPersist then b.record else record
    persists := b.persists + 1 }

instance : Backend SwitchedBackend Empty where
  load b := return (b.loadAnswer, { b with loads := b.loads + 1 })
  persist record b := return (b.persistAnswer, b.afterPersist record)
  describe b := b.title

end SwitchedBackend

end HostRegistry
