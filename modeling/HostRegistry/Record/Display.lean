import HostRegistry.Record.Basic
import HostRegistry.Text.Quoted

/-!
The one-line form of a record, used in log lines. Labels and attributes are quoted, so a record
cannot break the line it is shown in.
-/

set_option autoImplicit false

namespace HostRegistry.Record

/-- The characters of the one-line form. -/
def displayChars (r : Record) : List Char :=
  "HostInfo [Labels: ".toList ++ Text.quotedList r.labels ++ ", Attributes: ".toList ++
    Text.quotedEntries r.attributes.entries ++ "]".toList

/-- The one-line form. -/
def display (r : Record) : String := String.ofList r.displayChars

/-- The one-line form of a slot that may hold a record. -/
def displaySlot : Option Record → String
  | some r => r.display
  | none => "None"

end HostRegistry.Record
