/-!
The configuration: how the log is written and where records are kept.
-/

set_option autoImplicit false

namespace HostRegistry

/-- The kinds of backend a configuration can choose. -/
inductive StoreKind where
  | file
  | memory
  deriving DecidableEq

namespace StoreKind

/-- The name of a kind. -/
def name : StoreKind → String
  | .file => "file"
  | .memory => "memory"

/-- The kind with a name. -/
def ofName? (name : String) : Option StoreKind :=
  if name = "file" then some .file else if name = "memory" then some .memory else none

/-- What is said about a name that no kind has. -/
def unknownMessage (name : String) : String :=
  "unknown store backend '" ++ name ++ "' (expected file or memory)"

theorem ofName?_name (kind : StoreKind) : ofName? kind.name = some kind := by
  cases kind <;> rfl

end StoreKind

/-- The configuration. -/
structure Config where
  logFormat : String
  backend : StoreKind
  directory : Option String
  deriving DecidableEq

namespace Config

/-- The configuration where nothing is said. -/
def default : Config := ⟨"text", .file, none⟩

instance : Inhabited Config := ⟨default⟩

end Config

end HostRegistry
