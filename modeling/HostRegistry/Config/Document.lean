import HostRegistry.Config.Basic
import HostRegistry.Toml.Reader

/-!
The configuration as a TOML text.

There are two tables, `general` and `store`, and every key may be left out. A table may also be
given as an array of its values in order. `write` writes a configuration and `read` reads one.
-/

set_option autoImplicit false

namespace HostRegistry.Config
open Toml (Item)

/-- Why a text is no configuration. -/
inductive DocumentFault where
  | form
  | content
  deriving DecidableEq

/-- Words that stand for a fault. The program shows the diagnostics of a TOML library here, with the
line and a picture of the place, and these are not its words. -/
def DocumentFault.message : DocumentFault → String
  | .form => "not a TOML document"
  | .content => "a value of another kind was expected"

/-- The first items as far as they go. -/
def positional : List String → List Item → List (Option Item)
  | [], _ => []
  | _ :: names, [] => none :: positional names []
  | _ :: names, item :: items => some item :: positional names items

/-- The values of named fields in what is to be a table. A date has none of the fields. -/
def fieldsOf (names : List String) : Item → Option (List (Option Item))
  | .table _ _ entries => some (names.map (Toml.Entries.find? entries))
  | .inline entries => some (names.map (Toml.Entries.find? entries))
  | .dateTime => some (names.map fun _ => none)
  | .array items => some (positional names items)
  | .tables elements => some (positional names (elements.map (.table false false)))
  | _ => none

/-- The value of a field: the default if it is left out, and nothing if it cannot be read. -/
def readField {α : Type} (read : Item → Option α) (default : α) : Option Item → Option α
  | some item => read item
  | none => some default

/-- The text that an item is. -/
def readText : Item → Option String
  | .text value => some value
  | _ => none

/-- Whether an item is a table or an array without content. -/
def isVoid : Item → Bool
  | .table _ _ [] => true
  | .inline [] => true
  | .array [] => true
  | _ => false

/-- The kind of backend that an item names, as a text or as the only key of a table. -/
def readKind : Item → Option StoreKind
  | .text name => StoreKind.ofName? name
  | .table _ _ [(name, item)] => if isVoid item then StoreKind.ofName? name else none
  | .inline [(name, item)] => if isVoid item then StoreKind.ofName? name else none
  | _ => none

/-- The log format in the table `general`. -/
def readGeneral (item : Item) : Option String :=
  match fieldsOf ["log_format"] item with
  | some [format] => readField readText default.logFormat format
  | _ => none

/-- The backend and the directory in the table `store`. -/
def readStore (item : Item) : Option (StoreKind × Option String) :=
  match fieldsOf ["backend", "dir"] item with
  | some [backend, directory] => do
    let backend ← readField readKind default.backend backend
    let directory ← readField (fun item => (readText item).map some) default.directory directory
    return (backend, directory)
  | _ => none

/-- The configuration in the entries of a whole text. -/
def ofEntries (entries : Toml.Entries) : Option Config := do
  let format ← readField readGeneral default.logFormat (entries.find? "general")
  let (backend, directory) ←
    readField readStore (default.backend, default.directory) (entries.find? "store")
  return ⟨format, backend, directory⟩

/-- Reads a configuration. -/
def read (text : String) : Except DocumentFault Config :=
  match Toml.readDocument text with
  | none => .error .form
  | some entries =>
    match ofEntries entries with
    | none => .error .content
    | some config => .ok config

/-- A key with a text on a line of its own. -/
def assignment (key text : String) : List Char :=
  key.toList ++ " = ".toList ++ Toml.write text ++ ['\n']

/-- The characters of the text of a configuration. -/
def writeChars (c : Config) : List Char :=
  "[general]\n".toList ++ assignment "log_format" c.logFormat ++ "\n[store]\n".toList ++
    assignment "backend" c.backend.name ++
    match c.directory with
    | some directory => assignment "dir" directory
    | none => []

/-- The text of a configuration. -/
def write (c : Config) : String := String.ofList c.writeChars

end HostRegistry.Config
