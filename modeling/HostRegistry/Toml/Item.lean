/-!
What a TOML text holds, and how keys and headers build it up.

`addKey` puts a value under a dotted key and `openTable`, `openElement` follow a header. A table that
exists only because something below it was named is implicit: it may still be given a header of its
own. One made by a dotted key may be extended by dotted keys of the same table only. `none` is a key
that is defined twice or that passes through something that is no table.
-/

set_option autoImplicit false

namespace HostRegistry.Toml

/-- A value or a table. Of numbers and times only the kind is kept. -/
inductive Item where
  | text (value : String)
  | number
  | boolean
  | dateTime
  | array (items : List Item)
  | inline (entries : List (String × Item))
  | table (implicit dotted : Bool) (entries : List (String × Item))
  | tables (elements : List (List (String × Item)))

/-- The entries of a table in the order of their keys' appearance. -/
abbrev Entries : Type := List (String × Item)

namespace Entries

/-- The item under a key. -/
def find? (entries : Entries) (key : String) : Option Item :=
  (List.find? (·.1 = key) entries).map (·.2)

/-- The entries with the item of a key replaced. -/
def replace (entries : Entries) (key : String) (item : Item) : Entries :=
  entries.map fun e => if e.1 = key then (key, item) else e

/-- Follows a path down and changes the entries it ends at; `change` is told whether they are those
of a table made by a dotted key. Tables that are missing on the way are made, implicit ones, and the
last table of an array of tables stands for the array. -/
def descend (dotted : Bool) (change : Bool → Entries → Option Entries) :
    Bool → List String → Entries → Option Entries
  | ofDotted, [], entries => change ofDotted entries
  | _, key :: path, entries =>
    match entries.find? key with
    | none =>
      (descend dotted change dotted path []).map fun below =>
        entries ++ [(key, .table true dotted below)]
    | some (.table implicit ofDotted below) =>
      if dotted && !implicit then none
      else
        (descend dotted change ofDotted path below).map fun below =>
          entries.replace key (.table implicit ofDotted below)
    | some (.tables elements) =>
      match elements.getLast? with
      | none => none
      | some last =>
        (descend dotted change false path last).map fun last =>
          entries.replace key (.tables (elements.dropLast ++ [last]))
    | some _ => none

/-- Adds an entry with a new key. -/
def addNew (key : String) (item : Item) (entries : Entries) : Option Entries :=
  match entries.find? key with
  | some _ => none
  | none => some (entries ++ [(key, item)])

/-- Puts an item under a key below a dotted path. The table that takes it is made by a dotted key
exactly if there is such a path. -/
def addKey (path : List String) (key : String) (item : Item) (entries : Entries) : Option Entries :=
  descend true (fun ofDotted found => if ofDotted = path.isEmpty then none else addNew key item found)
    false path entries

/-- Opens a table that is new or was only implied so far. -/
def openLast (key : String) (entries : Entries) : Option Entries :=
  match entries.find? key with
  | none => some (entries ++ [(key, .table false false [])])
  | some (.table true false below) => some (entries.replace key (.table false false below))
  | some _ => none

/-- Opens a new table at the end of an array of tables, which may be new. -/
def openLastElement (key : String) (entries : Entries) : Option Entries :=
  match entries.find? key with
  | none => some (entries ++ [(key, .tables [[]])])
  | some (.tables elements) => some (entries.replace key (.tables (elements ++ [[]])))
  | some _ => none

/-- Follows a header in single brackets. -/
def openTable (path : List String) (entries : Entries) : Option Entries :=
  match path.getLast? with
  | none => none
  | some key => descend false (fun _ => openLast key) false path.dropLast entries

/-- Follows a header in double brackets. -/
def openElement (path : List String) (entries : Entries) : Option Entries :=
  match path.getLast? with
  | none => none
  | some key => descend false (fun _ => openLastElement key) false path.dropLast entries

/-- Puts an item under a dotted key in the table of a header. -/
def addBelow (header path : List String) (key : String) (item : Item) (entries : Entries) :
    Option Entries :=
  descend false (fun _ => addKey path key item) false header entries

end Entries

end HostRegistry.Toml
