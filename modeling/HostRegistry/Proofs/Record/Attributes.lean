import HostRegistry.Proofs.Record.Bare
import HostRegistry.Proofs.SortedMap
import HostRegistry.Proofs.Text.Order

/-!
What a history of edits makes of the attributes of a record.

Attributes are listed by key, in the order of the bytes of the keys, and each key once. The last edit
of a key decides over it (`find?_afterAttributeEdits`), so edits of different keys can change places.
A record that was read from a document has the history that its text lists: each member of the
attributes is an insertion, a repeated name being the same key again.
-/

set_option autoImplicit false

namespace HostRegistry

open Json (Blanks Block WritesObject WritesText WritesTextMap)

/-- An edit of the attributes of a record. -/
inductive AttributeEdit where
  | insert (key value : String)
  | remove (key : String)
  deriving DecidableEq

namespace AttributeEdit

/-- The key that an edit is about. -/
def key : AttributeEdit → String
  | .insert key _ => key
  | .remove key => key

/-- What an edit leaves at a key: a value, or that there is none; none if the edit is about another
key. -/
def leaves? (key : String) : AttributeEdit → Option (Option String)
  | .insert inserted value => if key = inserted then some (some value) else none
  | .remove removed => if key = removed then some none else none

/-- The insertion of a listed attribute. -/
def ofEntry (entry : String × String) : AttributeEdit := .insert entry.1 entry.2

/-- The value that a key was given by its last insertion, unless it was removed after that. -/
def lastValue (key : String) (edits : List AttributeEdit) : Option String :=
  (edits.reverse.findSome? (leaves? key)).join

variable {key : String}

theorem leaves?_of_ne {edit : AttributeEdit} (h : edit.key ≠ key) : edit.leaves? key = none := by
  cases edit with
  | insert inserted value => exact if_neg h.symm
  | remove removed => exact if_neg h.symm

/-- Only the edits of a key leave anything there. -/
theorem findSome?_leaves?_filter (key : String) (edits : List AttributeEdit) :
    (edits.filter (·.key = key)).reverse.findSome? (leaves? key) =
      edits.reverse.findSome? (leaves? key) := by
  rw [← List.head?_filterMap, ← List.head?_filterMap, ← List.filter_reverse, List.filterMap_filter]
  congr 2
  funext edit
  by_cases h : edit.key = key
  · rw [if_pos (decide_eq_true h)]
  · rw [if_neg (by rw [decide_eq_true_eq]; exact h), leaves?_of_ne h]

theorem findSome?_leaves?_ofEntry (key : String) (entries : List (String × String)) :
    (entries.map ofEntry).findSome? (leaves? key) = (SortedMap.lookup key entries).map some := by
  induction entries with
  | nil => rfl
  | cons entry rest ih =>
    rw [List.map_cons, List.findSome?_cons, ih, ofEntry, leaves?, SortedMap.lookup]
    by_cases h : key = entry.1
    · rw [if_pos h, if_pos (Std.LawfulEqCmp.compare_eq_iff_eq.mpr h)]
      rfl
    · rw [if_neg h, if_neg (h ∘ Std.LawfulEqCmp.compare_eq_iff_eq.mp)]

end AttributeEdit

namespace Record

/-- The record after an edit. -/
def afterAttributeEdit (r : Record) : AttributeEdit → Record
  | .insert key value => r.setAttribute key value
  | .remove key => r.removeAttribute key

/-- The record after edits one after the other. -/
def afterAttributeEdits (r : Record) (edits : List AttributeEdit) : Record :=
  edits.foldl afterAttributeEdit r

variable {r : Record} {text : String}

/-! ## Histories -/

/-- An edit leaves at its key what it says, and all other keys as they were. -/
theorem find?_afterAttributeEdit (r : Record) (edit : AttributeEdit) (key : String) :
    (r.afterAttributeEdit edit).attributes.find? key =
      (edit.leaves? key).getD (r.attributes.find? key) := by
  cases edit with
  | insert inserted value =>
    simp only [afterAttributeEdit, setAttribute, SortedMap.find?_insert, AttributeEdit.leaves?,
      Std.LawfulEqCmp.compare_eq_iff_eq]
    split <;> rfl
  | remove removed =>
    simp only [afterAttributeEdit, removeAttribute, SortedMap.find?_erase, AttributeEdit.leaves?,
      Std.LawfulEqCmp.compare_eq_iff_eq]
    split <;> rfl

/-- The last edit of a key decides over it. -/
theorem find?_afterAttributeEdits (r : Record) (edits : List AttributeEdit) (key : String) :
    (r.afterAttributeEdits edits).attributes.find? key =
      (edits.reverse.findSome? (AttributeEdit.leaves? key)).getD (r.attributes.find? key) := by
  induction edits generalizing r with
  | nil => rfl
  | cons edit rest ih =>
    rw [afterAttributeEdits, List.foldl_cons, ← afterAttributeEdits, ih, find?_afterAttributeEdit,
      List.reverse_cons, List.findSome?_append, Option.getD_or, List.findSome?_singleton]

theorem labels_afterAttributeEdits (r : Record) (edits : List AttributeEdit) :
    (r.afterAttributeEdits edits).labels = r.labels := by
  induction edits generalizing r with
  | nil => rfl
  | cons edit rest ih =>
    rw [afterAttributeEdits, List.foldl_cons, ← afterAttributeEdits, ih]
    cases edit <;> rfl

/-- Histories with the same edits of each key leave the same record. -/
theorem afterAttributeEdits_of_filter {a b : List AttributeEdit}
    (h : ∀ key, a.filter (·.key = key) = b.filter (·.key = key)) (r : Record) :
    r.afterAttributeEdits a = r.afterAttributeEdits b := by
  ext1
  · rw [labels_afterAttributeEdits, labels_afterAttributeEdits]
  · apply SortedMap.ext_find?
    intro key
    rw [find?_afterAttributeEdits, find?_afterAttributeEdits,
      ← AttributeEdit.findSome?_leaves?_filter key a, h, AttributeEdit.findSome?_leaves?_filter]

end Record

/-! ## The history that a document lists -/

/-- An object whose members are texts with these names, in this order. -/
def WritesEntries (w : List Char) (entries : List (String × String)) : Prop :=
  ∃ items : List (String × String × List Char), WritesObject w (items.map fun i => (i.1, i.2.2)) ∧
    (∀ i ∈ items, WritesText i.2.2 i.2.1) ∧ entries = items.map fun i => (i.1, i.2.1)

/-- A text lists these attributes, in this order: they are the value of its only member of that name,
or the third element of its list, and where this is left out there are none. -/
def ListsAttributes (text : String) (entries : List (String × String)) : Prop :=
  ∃ l w m, Blanks l ∧ Blanks m ∧ text.toList = l ++ (w ++ m) ∧
    ((∃ members, WritesObject w members ∧
        AtMostOnce [] WritesEntries (valuesOf "attributes" members) entries) ∨
      ∃ items, Block '[' ']' items w ∧ AtMostOnce [] WritesEntries (items.drop 2) entries)

theorem exists_writesEntries {values : List (List Char)} {m : SortedMap String String}
    (h : AtMostOnce ∅ WritesTextMap values m) :
    ∃ entries, AtMostOnce [] WritesEntries values entries ∧ m = .ofList entries := by
  rcases h with ⟨hvalues, hm⟩ | ⟨w, hvalues, items, hobject, hitems, hlast⟩
  · exact ⟨[], Or.inl ⟨hvalues, rfl⟩, hm⟩
  · exact ⟨items.map fun i => (i.1, i.2.1), Or.inr ⟨w, hvalues, items, hobject, hitems, rfl⟩,
      SortedMap.eq_ofList_iff.mpr hlast⟩

namespace Record

variable {r : Record} {text : String}

/-- A record that is decoded has the attributes that its text lists, the last value of a repeated name
counting. -/
theorem exists_listsAttributes (h : decode text = .ok r) :
    ∃ entries, ListsAttributes text entries ∧ r.attributes = .ofList entries := by
  obtain ⟨l, w, m, hl, hm, htext, hw⟩ := isDocument_iff.mpr (decode_eq_ok_iff.mp h)
  cases hw with
  | object hobject hmembers =>
    obtain ⟨entries, honce, hattributes⟩ := exists_writesEntries hmembers.attributes
    exact ⟨entries, ⟨l, w, m, hl, hm, htext, Or.inl ⟨_, hobject, honce⟩⟩, hattributes⟩
  | @list number labels attributes hblock _ hlabels hattributes horder =>
    obtain ⟨entries, honce, hentries⟩ := exists_writesEntries hattributes
    have hdrop : (number :: (labels ++ attributes)).drop 2 = attributes := by
      rcases hlabels with ⟨rfl, -⟩ | ⟨w, rfl, -⟩
      · rw [horder rfl]
        rfl
      · rfl
    rw [← hdrop] at honce
    exact ⟨entries, ⟨l, w, m, hl, hm, htext, Or.inr ⟨_, hblock, honce⟩⟩, hentries⟩

/-- What a record with a history has at a key, when edits come after it. -/
theorem find?_of_history {history : List AttributeEdit}
    (h : ∀ key, r.attributes.find? key = AttributeEdit.lastValue key history)
    (edits : List AttributeEdit) (key : String) :
    (r.afterAttributeEdits edits).attributes.find? key =
      AttributeEdit.lastValue key (history ++ edits) := by
  rw [find?_afterAttributeEdits, h, AttributeEdit.lastValue, AttributeEdit.lastValue,
    List.reverse_append, List.findSome?_append]
  cases edits.reverse.findSome? (AttributeEdit.leaves? key) <;> rfl

/-- Attributes stay canonical. Whatever insertions and removals a record has gone through, its keys
are listed once each, in the order of their bytes. In a record that was empty at first each key has
the value that it was given last, unless it was removed since; so it has in a record that was decoded,
the attributes that the text lists being insertions too. And edits of different keys can be exchanged:
they leave the same record and the same document. -/
theorem attributes_stay_canonical :
    (∀ (r : Record) (edits : List AttributeEdit),
      let keys := (r.afterAttributeEdits edits).attributes.entries.map (·.1)
      (keys.Pairwise fun a b => Text.bytes a < Text.bytes b) ∧ keys.Nodup) ∧
    (∀ edits key, (empty.afterAttributeEdits edits).attributes.find? key =
      AttributeEdit.lastValue key edits) ∧
    (∀ text r, decode text = .ok r → ∃ entries, ListsAttributes text entries ∧ ∀ edits key,
      (r.afterAttributeEdits edits).attributes.find? key =
        AttributeEdit.lastValue key (entries.map .ofEntry ++ edits)) ∧
    ∀ (r : Record) (a b : List AttributeEdit),
      (∀ key, a.filter (·.key = key) = b.filter (·.key = key)) →
      r.afterAttributeEdits a = r.afterAttributeEdits b ∧
        (r.afterAttributeEdits a).encode = (r.afterAttributeEdits b).encode := by
  refine ⟨?_, ?_, ?_, ?_⟩
  · intro r edits keys
    exact ⟨SortedMap.keys_ascending _, SortedMap.keys_nodup _⟩
  · have hnone : ∀ key, empty.attributes.find? key = AttributeEdit.lastValue key [] := fun _ => rfl
    exact find?_of_history hnone
  · intro text r hdecode
    obtain ⟨entries, hlists, hattributes⟩ := exists_listsAttributes hdecode
    refine ⟨entries, hlists, find?_of_history fun key => ?_⟩
    rw [hattributes, SortedMap.find?_ofList, AttributeEdit.lastValue, ← List.map_reverse,
      AttributeEdit.findSome?_leaves?_ofEntry]
    cases SortedMap.lookup key entries.reverse <;> rfl
  · intro r a b hsame
    have hequal := afterAttributeEdits_of_filter hsame r
    exact ⟨hequal, congrArg encode hequal⟩

end Record

end HostRegistry
