import HostRegistry.Proofs.Json.Truncated
import HostRegistry.Proofs.Record.Stored
import HostRegistry.Proofs.Store.Neighbours

/-!
A stored document that breaks off is never taken for a record.

Wherever it is cut, reading it meets the end of the text. A file backend that finds such a text in
its file says that it cannot load it, not that the host is unknown.
-/

set_option autoImplicit false

namespace HostRegistry.Record

open Json (Cut Early Reads Starves WholeMember)

/-- The members of a stored document are understood whole only. -/
theorem chain_whole_members (r : Record) :
    Json.Chain
      (WholeMember .pretty
        (Json.memberReader [Draft.versionField, Draft.labelsField, Draft.attributesField]))
      .empty
      (Json.member .pretty "serializer_version" (Nat.toDigits 10 documentVersion) ::
        r.jsonMembers .pretty)
      ⟨some documentVersion, some r.labels, some (SortedMap.ofList r.attributes.entries)⟩ := by
  have version : Reads (Json.readNatural32.map fun n => Draft.mk (some n) none none)
      (Nat.toDigits 10 documentVersion) ⟨some documentVersion, none, none⟩ :=
    (Json.reads_natural32 (by decide)).map _
  have labels : Reads
      (Json.readTexts.map fun ls => Draft.mk (some documentVersion) (some ls) none)
      (Json.texts .pretty 1 r.labels) ⟨some documentVersion, some r.labels, none⟩ :=
    (Json.reads_texts .pretty 1 r.labels).map _
  have attributes : Reads
      (Json.readTextMap.map fun m => Draft.mk (some documentVersion) (some r.labels) (some m))
      (Json.textMembers .pretty 1 r.attributes.entries)
      ⟨some documentVersion, some r.labels, some (SortedMap.ofList r.attributes.entries)⟩ :=
    (Json.reads_textMembers .pretty 1 r.attributes.entries).map _
  exact ⟨_, ⟨"serializer_version", _, rfl, _, rfl, version, (Json.starves_digit '1').map _⟩,
    _, ⟨"labels", _, rfl, _, rfl, labels, (Json.starves_texts .pretty 1 r.labels).map _⟩,
    _, ⟨"attributes", _, rfl, _, rfl, attributes,
      (Json.starves_textMembers .pretty 1 r.attributes.entries).map _⟩, rfl⟩

theorem starves_encodeChars (r : Record) :
    Starves (Json.readStruct "Document"
      [Draft.versionField, Draft.labelsField, Draft.attributesField] .empty) r.encodeChars :=
  Json.starves_struct .pretty 0 "Document" r.chain_whole_members

/-- A stored document that breaks off at any character is refused because it ends too early, and a
file backend that finds it in its file answers that it cannot load it. -/
theorem truncated_refused (r : Record) (p : String) (hfront : p.toList <+: r.encode.toList)
    (hproper : p ≠ r.encode) :
    ∃ fault, fault.category = .early ∧ decode p = .error (.json fault) ∧
      ∀ (b : FileBackend) (fs : FileSystem), fs.readFile b.path = .ok p.toUTF8 →
        (b.load.run fs).value = .error (.load b.describe (Error.json fault).message) := by
  have hcut : Cut p.toList r.encodeChars := by
    rw [encode, String.toList_ofList] at hfront
    refine ⟨hfront, fun heq => hproper ?_⟩
    rw [encode, ← heq, String.ofList_toList]
  obtain ⟨fault, hread, hearly⟩ := Json.early_readAll r.starves_encodeChars hcut
  have hdecode : decode p = .error (.json fault) := by
    rw [String.ofList_toList] at hread
    rw [decode, hread]
  refine ⟨fault, hearly, hdecode, ?_⟩
  intro b fs hfile
  rw [(b.run_load fs).1, hfile]
  simp only [FileBackend.loadAnswer, FileBackend.fromUTF8?_toUTF8, hdecode]
  rfl

/-- Of the document of a record with a label the first key is left in part. -/
theorem truncated_refused_in_key :
    let r : Record := ⟨["linux"], ∅⟩
    let p := "\x7b\n  \"serial"
    p.toList <+: r.encode.toList ∧ p ≠ r.encode ∧
      ∃ fault, fault.category = .early ∧ decode p = .error (.json fault) ∧
        ∀ (b : FileBackend) (fs : FileSystem), fs.readFile b.path = .ok p.toUTF8 →
          (b.load.run fs).value = .error (.load b.describe (Error.json fault).message) := by
  intro r p
  have hfront : p.toList <+: r.encode.toList := by decide
  have hproper : p ≠ r.encode := by decide
  exact ⟨hfront, hproper, truncated_refused r p hfront hproper⟩

end HostRegistry.Record
