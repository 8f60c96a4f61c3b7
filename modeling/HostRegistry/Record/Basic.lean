import HostRegistry.SortedMap

/-!
The record kept for a host: labels in their order, and attributes by key.

A label is any text. A label of a family is written `family:value`; `Label.value?` reads the value
back. The edits are `addLabel`, `removeLabel` and `setValue`; the first two also say whether they
changed the record. Attributes are a `SortedMap`, so records with the same labels and the same
answers for every key are equal.
-/

set_option autoImplicit false

namespace HostRegistry

namespace Label

/-- The label of a family that carries a value. -/
def make (family value : String) : String := family ++ ":" ++ value

/-- What a label carries for a family: the text after the family and the colon. -/
def value? (family label : String) : Option String :=
  ((family.toList ++ [':']).isPrefixOf? label.toList).map String.ofList

/-- Whether a label belongs to a family. -/
def carries (family label : String) : Bool := (value? family label).isSome

end Label

/-- Labels and attributes of one host. -/
structure Record where
  labels : List String
  attributes : SortedMap String String
  deriving DecidableEq

namespace Record

/-- The record with no label and no attribute. -/
def empty : Record := ⟨[], ∅⟩

instance : EmptyCollection Record := ⟨empty⟩

instance : Inhabited Record := ⟨empty⟩

/-- Records with the same labels and the same attributes are equal. -/
@[ext]
theorem ext {r s : Record} (hlabels : r.labels = s.labels)
    (hattributes : r.attributes = s.attributes) : r = s := by
  cases r
  cases s
  cases hlabels
  cases hattributes
  rfl

/-- Whether a label is present. -/
def hasLabel (r : Record) (label : String) : Bool := r.labels.contains label

/-- Appends a label unless it is present, and says whether it did. -/
def addLabel (r : Record) (label : String) : Record × Bool :=
  if r.hasLabel label then (r, false) else ({ r with labels := r.labels ++ [label] }, true)

/-- Drops every occurrence of a label, and says whether there was one. -/
def removeLabel (r : Record) (label : String) : Record × Bool :=
  ({ r with labels := r.labels.filter (· != label) }, r.hasLabel label)

/-- Replaces the labels of a family by one that carries the value, at the end. -/
def setValue (r : Record) (family value : String) : Record :=
  { r with labels := r.labels.filter (!Label.carries family ·) ++ [Label.make family value] }

/-- The values of a family in label order. -/
def valuesOf (r : Record) (family : String) : List String :=
  r.labels.filterMap (Label.value? family)

/-- The first value of a family, empty if there is none. -/
def valueOf (r : Record) (family : String) : String :=
  (r.labels.findSome? (Label.value? family)).getD ""

/-- Sets an attribute. -/
def setAttribute (r : Record) (key value : String) : Record :=
  { r with attributes := r.attributes.insert key value }

/-- Drops an attribute. -/
def removeAttribute (r : Record) (key : String) : Record :=
  { r with attributes := r.attributes.erase key }

/-- The record of a list of labels, repetitions left out, and of attributes, the last one of a
repeated key counting. -/
def ofLists (labels : List String) (attributes : List (String × String)) : Record :=
  { labels := (labels.foldl (fun r l => (addLabel r l).1) empty).labels
    attributes := SortedMap.ofList attributes }

end Record

end HostRegistry
