import HostRegistry.Proofs.Json.Numbers
import HostRegistry.Proofs.SortedMap
import HostRegistry.Record.Document

/-!
The stored document of a record holds the record: `decode_encode`, for every list of labels, every
map of attributes and every character in them. A document therefore belongs to one record only.
-/

set_option autoImplicit false

namespace HostRegistry.Record

open Json (Member Reads)

/-- The draft in which the labels and the attributes of a record were read. -/
def draft (version : Option Nat) (r : Record) : Draft := ⟨version, some r.labels, some r.attributes⟩

/-- The written labels and attributes of a record are understood as its fields, by every reader that
looks for them. -/
theorem chain_jsonMembers (style : Json.Style) {fields : List (Json.Field Draft)}
    (version : Option Nat) (r : Record)
    (hlabels : fields.find? (·.name = "labels") = some Draft.labelsField)
    (hattributes : fields.find? (·.name = "attributes") = some Draft.attributesField) :
    Json.Chain (Member style (Json.memberReader fields)) ⟨version, none, none⟩
      (r.jsonMembers style) (r.draft version) := by
  have labels : Reads (Json.readTexts.map fun ls => Draft.mk version (some ls) none)
      (Json.texts style 1 r.labels) ⟨version, some r.labels, none⟩ :=
    (Json.reads_texts style 1 r.labels).map _
  have attributes : Reads (Json.readTextMap.map fun m => Draft.mk version (some r.labels) (some m))
      (Json.textMembers style 1 r.attributes.entries) (r.draft version) := by
    have h := Json.reads_textMembers style 1 r.attributes.entries
    rw [SortedMap.ofList_entries] at h
    exact h.map _
  refine ⟨⟨version, some r.labels, none⟩,
    ⟨"labels", _, rfl, _, ?_, labels⟩,
    r.draft version, ⟨"attributes", _, rfl, _, ?_, attributes⟩, rfl⟩
  · simp only [Json.memberReader, hlabels]
    rfl
  · simp only [Json.memberReader, hattributes]
    rfl

/-- The stored document is understood as a struct with all its fields. -/
theorem reads_encodeChars (r : Record) :
    Reads (Json.readStruct "Document" [Draft.versionField, Draft.labelsField, Draft.attributesField]
      .empty) r.encodeChars (r.draft (some documentVersion)) := by
  refine Json.reads_struct .pretty 0 "Document" ?_ rfl
  have version : Reads (Json.readNatural32.map fun n => Draft.mk (some n) none none)
      (Nat.toDigits 10 documentVersion) ⟨some documentVersion, none, none⟩ :=
    (Json.reads_natural32 (by decide)).map _
  refine ⟨⟨some documentVersion, none, none⟩,
    ⟨"serializer_version", _, rfl, _, rfl, version⟩, ?_⟩
  exact chain_jsonMembers .pretty (some documentVersion) r rfl rfl

/-- The stored document of a record is read as that record. -/
theorem decode_encode (r : Record) : decode r.encode = .ok r := by
  rw [decode, encode, Json.readAll_written r.reads_encodeChars]
  rfl

/-- A text that was stored for a record is read as that record and as no other. -/
theorem decode_encode_iff (r s : Record) : decode r.encode = .ok s ↔ s = r := by
  rw [decode_encode r, Except.ok.injEq]
  exact eq_comm

end HostRegistry.Record
