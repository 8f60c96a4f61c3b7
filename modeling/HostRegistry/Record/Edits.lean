import HostRegistry.Record.Basic

/-!
Edits of a record by lists of labels, keys or attributes.

Each edit also gives the arguments that changed nothing, in their order.
-/

set_option autoImplicit false

namespace HostRegistry.Record

/-- Applies an edit to one argument after the other. The edit says whether it changed anything, and
the arguments for which it did not are collected. -/
def editEach {α : Type} (edit : Record → α → Record × Bool) : Record → List α → Record × List α
  | r, [] => (r, [])
  | r, x :: rest =>
    let (changed, did) := edit r x
    let (final, idle) := editEach edit changed rest
    (final, if did then idle else x :: idle)

/-- Adds labels; the second part are those that were present. -/
def addLabels (r : Record) (labels : List String) : Record × List String :=
  editEach addLabel r labels

/-- Removes labels; the second part are those that were not present. -/
def removeLabels (r : Record) (labels : List String) : Record × List String :=
  editEach removeLabel r labels

/-- Removes attributes; the second part are the keys that had none. -/
def removeAttributes (r : Record) (keys : List String) : Record × List String :=
  editEach (fun r key => (r.removeAttribute key, r.attributes.contains key)) r keys

/-- Sets attributes in order. -/
def setAttributes (r : Record) (entries : List (String × String)) : Record :=
  entries.foldl (fun r e => r.setAttribute e.1 e.2) r

end HostRegistry.Record
