import HostRegistry.Json.Printer
import HostRegistry.Json.Typed
import HostRegistry.Record.Basic

/-!
The two JSON forms of a record.

A stored document is a struct with a version, the labels and the attributes; `encode` writes it and
`decode` reads it. The bare form has no version; `toJson` writes it on one line and `ofJson` reads
it. Both readers skip members they do not know, and take labels and attributes that are left out as
empty.
-/

set_option autoImplicit false

namespace HostRegistry

/-- Why a text is not a stored document. -/
inductive DocumentError where
  | json (fault : Json.Fault)
  | unsupportedVersion (version : Nat)
  deriving DecidableEq

/-- The version of the documents written here, the only one that is read. -/
def documentVersion : Nat := 1

/-- The fields of a record that were read so far. -/
structure Draft where
  version : Option Nat
  labels : Option (List String)
  attributes : Option (SortedMap String String)

namespace Draft

/-- The draft of which no field was read. -/
def empty : Draft := ⟨none, none, none⟩

/-- The version field. -/
def versionField : Json.Field Draft :=
  { name := "serializer_version"
    required := true
    present := (·.version.isSome)
    read := fun d => Json.readNatural32.map fun n => { d with version := some n } }

/-- The field of the labels. -/
def labelsField : Json.Field Draft :=
  { name := "labels"
    required := false
    present := (·.labels.isSome)
    read := fun d => Json.readTexts.map fun ls => { d with labels := some ls } }

/-- The field of the attributes. -/
def attributesField : Json.Field Draft :=
  { name := "attributes"
    required := false
    present := (·.attributes.isSome)
    read := fun d => Json.readTextMap.map fun m => { d with attributes := some m } }

/-- The record of a draft; what was not read is empty. -/
def record (d : Draft) : Record := ⟨d.labels.getD [], d.attributes.getD ∅⟩

end Draft

namespace Record

/-- The written labels and attributes. -/
def jsonMembers (style : Json.Style) (r : Record) : List (List Char) :=
  [Json.member style "labels" (Json.texts style 1 r.labels),
    Json.member style "attributes" (Json.textMembers style 1 r.attributes.entries)]

/-- The characters of the stored document of a record. -/
def encodeChars (r : Record) : List Char :=
  Json.object .pretty 0
    (Json.member .pretty "serializer_version" (Nat.toDigits 10 documentVersion) ::
      jsonMembers .pretty r)

/-- The stored document of a record. -/
def encode (r : Record) : String := String.ofList r.encodeChars

/-- Reads a stored document. -/
def decode (text : String) : Except DocumentError Record :=
  match Json.readAll (Json.readStruct "Document"
      [Draft.versionField, Draft.labelsField, Draft.attributesField] .empty) text with
  | .error fault => .error (.json fault)
  | .ok draft =>
    let version := draft.version.getD 0
    if version = documentVersion then .ok draft.record else .error (.unsupportedVersion version)

/-- The bare form of a record. -/
def toJson (r : Record) : String := String.ofList (Json.object .compact 0 (r.jsonMembers .compact))

/-- Reads the bare form of a record. -/
def ofJson (text : String) : Except Json.Fault Record :=
  (Json.readAll (Json.readStruct "HostInfo" [Draft.labelsField, Draft.attributesField] .empty)
    text).map Draft.record

end Record

end HostRegistry
