import HostRegistry.Proofs.Json.Accepted
import HostRegistry.Record.Document

/-!
Which texts are stored documents.

`WritesDocument` gives the two forms of a document without a reader: an object with the version
once, the labels and the attributes at most once and any other members, or a list of the three with
the last ones left out. `decode_accepts_exactly` says that decoding follows it: a document of the
right version is read as its record, one of another version is refused for its version, and every
other text is no document.
-/

set_option autoImplicit false

namespace HostRegistry

open Json (Block Blanks Chain Exact WritesObject WritesNatural32 WritesTexts WritesTextMap
  Wellformed)

/-! ## The form of a document -/

/-- The written values that members of an object have under a name. -/
def valuesOf (name : String) (members : List (String × List Char)) : List (List Char) :=
  (members.filter (·.1 = name)).map (·.2)

/-- One written value of a form. -/
def Once {α : Type} (form : List Char → α → Prop) (values : List (List Char)) (a : α) : Prop :=
  ∃ w, values = [w] ∧ form w a

/-- One written value of a form, or none for what is absent. -/
def AtMostOnce {α : Type} (absent : α) (form : List Char → α → Prop) (values : List (List Char))
    (a : α) : Prop :=
  values = [] ∧ a = absent ∨ Once form values a

/-- The members of a document with a version and a record. -/
structure DocumentMembers (members : List (String × List Char)) (version : Nat) (r : Record) :
    Prop where
  version : Once WritesNatural32 (valuesOf "serializer_version" members) version
  labels : AtMostOnce [] WritesTexts (valuesOf "labels" members) r.labels
  attributes : AtMostOnce ∅ WritesTextMap (valuesOf "attributes" members) r.attributes
  others : ∀ m ∈ members, m.1 ∉ ["serializer_version", "labels", "attributes"] → Wellformed m.2

/-- The written forms of a document with a version and a record. -/
inductive WritesDocument (w : List Char) (version : Nat) (r : Record) : Prop
  | object {members : List (String × List Char)} (h : WritesObject w members)
      (hmembers : DocumentMembers members version r)
  | list {number : List Char} {labels attributes : List (List Char)}
      (h : Block '[' ']' (number :: (labels ++ attributes)) w)
      (hversion : WritesNatural32 number version)
      (hlabels : AtMostOnce [] WritesTexts labels r.labels)
      (hattributes : AtMostOnce ∅ WritesTextMap attributes r.attributes)
      (horder : labels = [] → attributes = [])

/-- A text that is a document, with any blanks around it. -/
def IsDocument (text : String) (version : Nat) (r : Record) : Prop :=
  ∃ l w m, Blanks l ∧ Blanks m ∧ text.toList = l ++ (w ++ m) ∧ WritesDocument w version r

/-! ## Fields that are filled once -/

/-- Written values fill a field that was read already or not: only an empty one can be filled, and
only once. -/
def Fills {α : Type} (form : List Char → α → Prop) (before : Option α) (values : List (List Char))
    (after : Option α) : Prop :=
  values = [] ∧ after = before ∨ before = none ∧ ∃ w a, values = [w] ∧ form w a ∧ after = some a

theorem fills_nil_iff {α : Type} {form : List Char → α → Prop} {before after : Option α} :
    Fills form before [] after ↔ after = before := by
  constructor
  · rintro (⟨-, h⟩ | ⟨-, w, a, hnil, -⟩)
    · exact h
    · cases hnil
  · exact fun h => Or.inl ⟨rfl, h⟩

theorem fills_cons_iff {α : Type} {form : List Char → α → Prop} {before after : Option α}
    {w : List Char} {values : List (List Char)} :
    Fills form before (w :: values) after ↔
      before = none ∧ ∃ a, form w a ∧ Fills form (some a) values after := by
  constructor
  · rintro (⟨hnil, -⟩ | ⟨hnone, w', a, hvalues, ha, rfl⟩)
    · cases hnil
    · obtain ⟨rfl, rfl⟩ := List.cons.inj hvalues
      exact ⟨hnone, a, ha, Or.inl ⟨rfl, rfl⟩⟩
  · rintro ⟨hnone, a, ha, ⟨rfl, rfl⟩ | ⟨hsome, -⟩⟩
    · exact Or.inr ⟨hnone, w, a, rfl, ha, rfl⟩
    · cases hsome

/-- A member fills the field of its name and no other. -/
theorem fills_member_iff {α : Type} {form : List Char → α → Prop} {before after : Option α}
    {name key : String} {w : List Char} {members : List (String × List Char)} :
    Fills form before (valuesOf name ((key, w) :: members)) after ↔
      if key = name then
        before = none ∧ ∃ a, form w a ∧ Fills form (some a) (valuesOf name members) after
      else Fills form before (valuesOf name members) after := by
  by_cases h : key = name
  · simp only [valuesOf, List.filter_cons, h, decide_true, if_true, List.map_cons]
    exact fills_cons_iff
  · simp only [valuesOf, List.filter_cons, h, decide_false, Bool.false_eq_true, if_false]

namespace Draft

/-- The fields of a document. -/
def documentFields : List (Json.Field Draft) := [versionField, labelsField, attributesField]

/-- The parts of a draft. -/
inductive Part where
  | version
  | labels
  | attributes

namespace Part

/-- What a part holds. -/
def Value : Part → Type
  | .version => Nat
  | .labels => List String
  | .attributes => SortedMap String String

/-- The field that is read into a part. -/
def field : Part → Json.Field Draft
  | .version => versionField
  | .labels => labelsField
  | .attributes => attributesField

/-- The name of the field. -/
def name (part : Part) : String := part.field.name

/-- How the value of the field is written. -/
def form : (part : Part) → List Char → part.Value → Prop
  | .version => WritesNatural32
  | .labels => WritesTexts
  | .attributes => WritesTextMap

/-- The part of a draft. -/
def get : (part : Part) → Draft → Option part.Value
  | .version => Draft.version
  | .labels => Draft.labels
  | .attributes => Draft.attributes

/-- The draft with another value in a part. -/
def set : (part : Part) → Draft → part.Value → Draft
  | .version => fun d n => { d with version := some n }
  | .labels => fun d ls => { d with labels := some ls }
  | .attributes => fun d m => { d with attributes := some m }

theorem get_set (part : Part) (d : Draft) (a : part.Value) :
    part.get (part.set d a) = some a := by
  cases part <;> rfl

theorem get_set_of_ne {part other : Part} (hne : part.name ≠ other.name) (d : Draft)
    (a : part.Value) : other.get (part.set d a) = other.get d := by
  cases part
  all_goals
    cases other
    all_goals first
      | rfl
      | exact absurd rfl hne

theorem eq_of_name_eq {part other : Part} (h : part.name = other.name) : part = other := by
  cases part
  all_goals
    cases other
    all_goals first
      | rfl
      | exact absurd h (by decide)

theorem mem_names_iff {key : String} :
    key ∈ ["serializer_version", "labels", "attributes"] ↔ ∃ part : Part, key = part.name := by
  constructor
  · intro h
    simp only [List.mem_cons, List.not_mem_nil, or_false] at h
    rcases h with h | h | h
    · exact ⟨.version, h⟩
    · exact ⟨.labels, h⟩
    · exact ⟨.attributes, h⟩
  · rintro ⟨part, rfl⟩
    cases part <;> decide

theorem find?_documentFields (part : Part) :
    documentFields.find? (·.name = part.name) = some part.field := by
  cases part <;> rfl

theorem present_eq_false (part : Part) (d : Draft) :
    part.field.present d = false ↔ part.get d = none := by
  cases part <;> exact Option.isSome_eq_false_iff.trans Option.isNone_iff_eq_none

end Part

/-- What the value of a field makes of a draft. -/
def FieldForm (name : String) (d : Draft) (w : List Char) (next : Draft) : Prop :=
  ∃ part : Part, name = part.name ∧ ∃ a, part.form w a ∧ part.set d a = next

theorem fieldForm_iff (part : Part) {d next : Draft} {w : List Char} :
    FieldForm part.name d w next ↔ ∃ a, part.form w a ∧ part.set d a = next := by
  constructor
  · rintro ⟨other, hname, h⟩
    obtain rfl := Part.eq_of_name_eq hname
    exact h
  · exact fun h => ⟨part, rfl, h⟩

theorem fieldsExact : Json.FieldsExact documentFields FieldForm := by
  intro field hfield d
  simp only [documentFields, List.mem_cons, List.not_mem_nil, or_false] at hfield
  rcases hfield with rfl | rfl | rfl
  · exact (Json.exact_readNatural32.map _).congr fun _ _ => (fieldForm_iff .version).symm
  · exact (Json.exact_readTexts.map _).congr fun _ _ => (fieldForm_iff .labels).symm
  · exact (Json.exact_readTextMap.map _).congr fun _ _ => (fieldForm_iff .attributes).symm

/-! ## Filling a draft -/

section Steps

variable {d next : Draft} {w : List Char}

theorem memberStep_iff (part : Part) :
    Json.MemberStep documentFields FieldForm d (part.name, w) next ↔
      part.get d = none ∧ ∃ a, part.form w a ∧ part.set d a = next := by
  simp only [Json.MemberStep, part.find?_documentFields]
  exact and_congr (part.present_eq_false d) (fieldForm_iff part)

theorem memberStep_other {name : String}
    (hname : name ∉ ["serializer_version", "labels", "attributes"]) :
    Json.MemberStep documentFields FieldForm d (name, w) next ↔ Wellformed w ∧ next = d := by
  have hnone : documentFields.find? (·.name = name) = none := by
    refine List.find?_eq_none.mpr fun field hfield heq => hname ?_
    rw [← of_decide_eq_true heq]
    exact List.mem_map_of_mem (f := Json.Field.name) hfield
  simp only [Json.MemberStep, hnone]

end Steps

/-- A draft is filled by members: each of its fields by the values under its name, and the other
members are well-formed. -/
structure Filled (d : Draft) (members : List (String × List Char)) (final : Draft) : Prop where
  version : Fills WritesNatural32 d.version (valuesOf "serializer_version" members) final.version
  labels : Fills WritesTexts d.labels (valuesOf "labels" members) final.labels
  attributes : Fills WritesTextMap d.attributes (valuesOf "attributes" members) final.attributes
  others : ∀ m ∈ members, m.1 ∉ ["serializer_version", "labels", "attributes"] → Wellformed m.2

/-- A draft is filled part by part. -/
theorem filled_iff {d final : Draft} {members : List (String × List Char)} :
    Filled d members final ↔
      (∀ part : Part,
        Fills part.form (part.get d) (valuesOf part.name members) (part.get final)) ∧
      ∀ m ∈ members, m.1 ∉ ["serializer_version", "labels", "attributes"] → Wellformed m.2 := by
  constructor
  · rintro ⟨hversion, hlabels, hattributes, hothers⟩
    refine ⟨fun part => ?_, hothers⟩
    cases part with
    | version => exact hversion
    | labels => exact hlabels
    | attributes => exact hattributes
  · rintro ⟨hparts, hothers⟩
    exact ⟨hparts .version, hparts .labels, hparts .attributes, hothers⟩

theorem filled_nil_iff {d final : Draft} : Filled d [] final ↔ d = final := by
  constructor
  · rintro ⟨hversion, hlabels, hattributes, -⟩
    obtain ⟨version, labels, attributes⟩ := d
    obtain ⟨version', labels', attributes'⟩ := final
    obtain rfl : version' = version := fills_nil_iff.mp hversion
    obtain rfl : labels' = labels := fills_nil_iff.mp hlabels
    obtain rfl : attributes' = attributes := fills_nil_iff.mp hattributes
    rfl
  · rintro rfl
    exact ⟨Or.inl ⟨rfl, rfl⟩, Or.inl ⟨rfl, rfl⟩, Or.inl ⟨rfl, rfl⟩, nofun⟩

section Cons

variable {d final : Draft} {w : List Char} {members : List (String × List Char)}

/-- A member with the name of a part fills that part, if it is empty, and leaves the others. -/
theorem filled_part_iff (part : Part) : Filled d ((part.name, w) :: members) final ↔
    part.get d = none ∧ ∃ a, part.form w a ∧ Filled (part.set d a) members final := by
  rw [filled_iff]
  constructor
  · rintro ⟨hparts, hothers⟩
    have hpart := fills_member_iff.mp (hparts part)
    rw [if_pos rfl] at hpart
    obtain ⟨hnone, a, ha, hfills⟩ := hpart
    refine ⟨hnone, a, ha, filled_iff.mpr ⟨fun other => ?_, (List.forall_mem_cons.mp hothers).2⟩⟩
    by_cases hname : part.name = other.name
    · obtain rfl := Part.eq_of_name_eq hname
      rwa [Part.get_set]
    · have hother := fills_member_iff.mp (hparts other)
      rwa [if_neg hname, ← Part.get_set_of_ne hname d a] at hother
  · rintro ⟨hnone, a, ha, hfilled⟩
    obtain ⟨hparts, hothers⟩ := filled_iff.mp hfilled
    refine ⟨fun other => fills_member_iff.mpr ?_, List.forall_mem_cons.mpr ⟨fun h => ?_, hothers⟩⟩
    · split
      next hname =>
        obtain rfl := Part.eq_of_name_eq hname
        have hpart := hparts part
        rw [Part.get_set] at hpart
        exact ⟨hnone, a, ha, hpart⟩
      next hname =>
        rw [← Part.get_set_of_ne hname d a]
        exact hparts other
    · exact absurd (Part.mem_names_iff.mpr ⟨part, rfl⟩) h

theorem filled_other_iff {name : String}
    (hname : name ∉ ["serializer_version", "labels", "attributes"]) :
    Filled d ((name, w) :: members) final ↔ Wellformed w ∧ Filled d members final := by
  have hfills (part : Part) :
      Fills part.form (part.get d) (valuesOf part.name ((name, w) :: members)) (part.get final) ↔
        Fills part.form (part.get d) (valuesOf part.name members) (part.get final) :=
    fills_member_iff.trans (by rw [if_neg fun h => hname (Part.mem_names_iff.mpr ⟨part, h⟩)])
  rw [filled_iff, filled_iff, forall_congr' hfills, List.forall_mem_cons]
  constructor
  · rintro ⟨hparts, hw, hothers⟩
    exact ⟨hw hname, hparts, hothers⟩
  · rintro ⟨hw, hparts, hothers⟩
    exact ⟨hparts, fun _ => hw, hothers⟩

end Cons

/-- What members fill, by the name of the first one. -/
theorem filled_cons_iff {d final : Draft} {name : String} {w : List Char}
    {members : List (String × List Char)} :
    Filled d ((name, w) :: members) final ↔
      ∃ next, Json.MemberStep documentFields FieldForm d (name, w) next ∧
        Filled next members final := by
  by_cases hname : name ∈ ["serializer_version", "labels", "attributes"]
  · obtain ⟨part, rfl⟩ := Part.mem_names_iff.mp hname
    rw [filled_part_iff]
    simp only [memberStep_iff]
    exact ⟨fun ⟨hnone, a, ha, h⟩ => ⟨_, ⟨hnone, a, ha, rfl⟩, h⟩,
      fun ⟨_, ⟨hnone, a, ha, heq⟩, h⟩ => ⟨hnone, a, ha, heq ▸ h⟩⟩
  · rw [filled_other_iff hname]
    simp only [memberStep_other hname]
    exact ⟨fun ⟨hw, h⟩ => ⟨d, ⟨hw, rfl⟩, h⟩, fun ⟨_, ⟨hw, heq⟩, h⟩ => ⟨hw, heq ▸ h⟩⟩

/-- Reading the members of an object fills a draft with them. -/
theorem chain_members_iff {d final : Draft} {members : List (String × List Char)} :
    Chain (Json.MemberStep documentFields FieldForm) d members final ↔ Filled d members final := by
  induction members generalizing d with
  | nil => exact filled_nil_iff.symm
  | cons m members ih =>
    rw [filled_cons_iff]
    exact exists_congr fun next => and_congr Iff.rfl ih

/-- Only the version has to be there. -/
theorem missing?_eq_none_iff {d : Draft} :
    Json.missing? d documentFields 0 = none ↔ ∃ n, d.version = some n := by
  obtain ⟨version, labels, attributes⟩ := d
  cases version with
  | none => exact ⟨nofun, nofun⟩
  | some n => exact ⟨fun _ => ⟨n, rfl⟩, fun _ => rfl⟩

/-- What is read from the elements of a list is what they write, as far as there are any. -/
theorem elements_of_chain {d : Draft} {left : List (Json.Field Draft)} {items : List (List Char)}
    {n : Nat} (hversion : d.version = some n)
    (hchain : Chain (Json.ElementStep FieldForm) (empty, documentFields) items (d, left)) :
    ∃ number labels attributes, items = number :: (labels ++ attributes) ∧
      WritesNatural32 number n ∧ Fills WritesTexts none labels d.labels ∧
      Fills WritesTextMap none attributes d.attributes ∧ (labels = [] → attributes = []) := by
  rcases items with _ | ⟨number, items⟩
  · obtain ⟨rfl, -⟩ := Prod.mk.inj hchain
    cases hversion
  obtain ⟨⟨d₁, left₁⟩, ⟨hnumber, rfl⟩, hchain⟩ := hchain
  obtain ⟨n', hn, rfl⟩ := (fieldForm_iff .version).mp hnumber
  rcases items with _ | ⟨labels, items⟩
  · obtain ⟨rfl, -⟩ := Prod.mk.inj hchain
    cases hversion
    exact ⟨number, [], [], rfl, hn, Or.inl ⟨rfl, rfl⟩, Or.inl ⟨rfl, rfl⟩, fun _ => rfl⟩
  obtain ⟨⟨d₂, left₂⟩, ⟨hlabels, rfl⟩, hchain⟩ := hchain
  obtain ⟨ls, hls, rfl⟩ := (fieldForm_iff .labels).mp hlabels
  rcases items with _ | ⟨attributes, items⟩
  · obtain ⟨rfl, -⟩ := Prod.mk.inj hchain
    cases hversion
    exact ⟨number, [labels], [], rfl, hn, Or.inr ⟨rfl, labels, ls, rfl, hls, rfl⟩,
      Or.inl ⟨rfl, rfl⟩, fun _ => rfl⟩
  obtain ⟨⟨d₃, left₃⟩, ⟨hattributes, rfl⟩, hchain⟩ := hchain
  obtain ⟨m, hm, rfl⟩ := (fieldForm_iff .attributes).mp hattributes
  rcases items with _ | ⟨item, items⟩
  · obtain ⟨rfl, -⟩ := Prod.mk.inj hchain
    cases hversion
    exact ⟨number, [labels], [attributes], rfl, hn, Or.inr ⟨rfl, labels, ls, rfl, hls, rfl⟩,
      Or.inr ⟨rfl, attributes, m, rfl, hm, rfl⟩, nofun⟩
  -- There is no fourth field.
  obtain ⟨next, hstep, -⟩ := hchain
  exact hstep.elim

/-- Elements in the order of the fields are read, with the last ones left out or not. -/
theorem exists_chain_of_elements {d : Draft} {number : List Char}
    {labels attributes : List (List Char)} {n : Nat} (hversion : d.version = some n)
    (hnumber : WritesNatural32 number n) (hlabels : Fills WritesTexts none labels d.labels)
    (hattributes : Fills WritesTextMap none attributes d.attributes)
    (horder : labels = [] → attributes = []) :
    ∃ left, Chain (Json.ElementStep FieldForm) (empty, documentFields)
      (number :: (labels ++ attributes)) (d, left) := by
  obtain ⟨version, readLabels, readAttributes⟩ := d
  obtain rfl : version = some n := hversion
  have first : Json.ElementStep FieldForm (empty, documentFields) number
      (⟨some n, none, none⟩, [labelsField, attributesField]) :=
    ⟨(fieldForm_iff .version).mpr ⟨n, hnumber, rfl⟩, rfl⟩
  rcases hlabels with ⟨rfl, rfl⟩ | ⟨-, w, ls, rfl, hls, rfl⟩
  · obtain rfl := horder rfl
    obtain rfl : readAttributes = none := fills_nil_iff.mp hattributes
    exact ⟨_, _, first, rfl⟩
  have second :
      Json.ElementStep FieldForm (⟨some n, none, none⟩, [labelsField, attributesField]) w
        (⟨some n, some ls, none⟩, [attributesField]) :=
    ⟨(fieldForm_iff .labels).mpr ⟨ls, hls, rfl⟩, rfl⟩
  rcases hattributes with ⟨rfl, rfl⟩ | ⟨-, w', m, rfl, hm, rfl⟩
  · exact ⟨_, _, first, _, second, rfl⟩
  have third : Json.ElementStep FieldForm (⟨some n, some ls, none⟩, [attributesField]) w'
      (⟨some n, some ls, some m⟩, []) :=
    ⟨(fieldForm_iff .attributes).mpr ⟨m, hm, rfl⟩, rfl⟩
  exact ⟨_, _, first, _, second, _, third, rfl⟩

end Draft

/-! ## Documents -/

theorem once_iff {α : Type} {form : List Char → α → Prop} {values : List (List Char)} {a : α} :
    Once form values a ↔ Fills form none values (some a) := by
  constructor
  · rintro ⟨w, rfl, ha⟩
    exact Or.inr ⟨rfl, w, a, rfl, ha, rfl⟩
  · rintro (⟨-, hnone⟩ | ⟨-, w, a', rfl, ha, heq⟩)
    · cases hnone
    · obtain rfl := Option.some.inj heq
      exact ⟨w, rfl, ha⟩

theorem atMostOnce_iff {α : Type} {absent : α} {form : List Char → α → Prop}
    {values : List (List Char)} {a : α} :
    AtMostOnce absent form values a ↔
      ∃ o : Option α, Fills form none values o ∧ o.getD absent = a := by
  constructor
  · rintro (⟨rfl, rfl⟩ | h)
    · exact ⟨none, Or.inl ⟨rfl, rfl⟩, rfl⟩
    · exact ⟨some a, once_iff.mp h, rfl⟩
  · rintro ⟨o, ⟨rfl, rfl⟩ | ⟨-, w, a', rfl, ha, rfl⟩, rfl⟩
    · exact Or.inl ⟨rfl, rfl⟩
    · exact Or.inr ⟨w, rfl, ha⟩

/-- The drafts that are read from a written document are those of its version and its record. -/
theorem structForm_iff {w : List Char} {version : Nat} {r : Record} :
    (∃ d, Json.StructForm Draft.documentFields Draft.FieldForm .empty w d ∧
        d.version = some version ∧ d.record = r) ↔ WritesDocument w version r := by
  constructor
  · rintro ⟨d, ⟨hform, -⟩, hversion, rfl⟩
    rcases hform with ⟨members, hobject, hchain⟩ | ⟨left, items, hblock, hchain⟩
    · obtain ⟨hnumber, hlabels, hattributes, hothers⟩ := Draft.chain_members_iff.mp hchain
      exact .object hobject ⟨once_iff.mpr (hversion ▸ hnumber),
        atMostOnce_iff.mpr ⟨d.labels, hlabels, rfl⟩,
        atMostOnce_iff.mpr ⟨d.attributes, hattributes, rfl⟩, hothers⟩
    · obtain ⟨number, labels, attributes, rfl, hnumber, hlabels, hattributes, horder⟩ :=
        Draft.elements_of_chain hversion hchain
      exact .list hblock hnumber (atMostOnce_iff.mpr ⟨d.labels, hlabels, rfl⟩)
        (atMostOnce_iff.mpr ⟨d.attributes, hattributes, rfl⟩) horder
  · obtain ⟨ls, m⟩ := r
    rintro (⟨hobject, hnumber, honceLabels, honceAttributes, hothers⟩ |
      ⟨hblock, hnumber, honceLabels, honceAttributes, horder⟩)
    all_goals
      obtain ⟨labels, hlabels, rfl⟩ := atMostOnce_iff.mp honceLabels
      obtain ⟨attributes, hattributes, rfl⟩ := atMostOnce_iff.mp honceAttributes
      refine ⟨⟨some version, labels, attributes⟩,
        ⟨?_, Draft.missing?_eq_none_iff.mpr ⟨version, rfl⟩⟩, rfl, rfl⟩
    · exact Or.inl ⟨_, hobject, Draft.chain_members_iff.mpr
        ⟨once_iff.mp hnumber, hlabels, hattributes, hothers⟩⟩
    · obtain ⟨left, hchain⟩ :=
        Draft.exists_chain_of_elements (d := ⟨some version, labels, attributes⟩) rfl hnumber hlabels
          hattributes horder
      exact Or.inr ⟨left, _, hblock, hchain⟩

/-- A text is a document if it is read whole as a draft. -/
theorem isDocument_iff {text : String} {version : Nat} {r : Record} :
    IsDocument text version r ↔
      ∃ d, Json.readAll (Json.readStruct "Document" Draft.documentFields .empty) text = .ok d ∧
        d.version = some version ∧ d.record = r := by
  have hexact := Json.exact_readStruct "Document" Draft.fieldsExact .empty
  constructor
  · rintro ⟨l, w, m, hl, hm, htext, hw⟩
    obtain ⟨d, hform, hd⟩ := structForm_iff.mpr hw
    exact ⟨d, hexact.readAll_iff.mpr ⟨l, w, m, hl, hm, htext, hform⟩, hd⟩
  · rintro ⟨d, hread, hd⟩
    obtain ⟨l, w, m, hl, hm, htext, hform⟩ := hexact.readAll_iff.mp hread
    exact ⟨l, w, m, hl, hm, htext, structForm_iff.mp ⟨d, hform, hd⟩⟩

namespace Record

/-- What decoding makes of a text that is read as a draft or not. -/
theorem decode_cases (text : String) :
    (∃ fault, decode text = .error (.json fault) ∧ ∀ n r, ¬ IsDocument text n r) ∨
    ∃ version record,
      decode text = (if version = documentVersion then .ok record
        else .error (.unsupportedVersion version)) ∧
      ∀ n r, IsDocument text n r ↔ n = version ∧ r = record := by
  rw [decode, show [Draft.versionField, Draft.labelsField, Draft.attributesField] =
    Draft.documentFields from rfl]
  cases hread : Json.readAll (Json.readStruct "Document" Draft.documentFields .empty) text with
  | error fault =>
    refine Or.inl ⟨fault, rfl, fun n r hdocument => ?_⟩
    obtain ⟨d, hread', -⟩ := isDocument_iff.mp hdocument
    rw [hread] at hread'
    cases hread'
  | ok d =>
    obtain ⟨_, _, _, -, -, -, -, hmissing⟩ :=
      (Json.exact_readStruct "Document" Draft.fieldsExact .empty).readAll_iff.mp hread
    obtain ⟨version, hversion⟩ := Draft.missing?_eq_none_iff.mp hmissing
    refine Or.inr ⟨version, d.record, ?_, fun n r => ?_⟩
    · simp only [hversion, Option.getD_some]
    rw [isDocument_iff, hread]
    constructor
    · rintro ⟨d', hd, hn, rfl⟩
      cases hd
      rw [hversion] at hn
      exact ⟨(Option.some.inj hn).symm, rfl⟩
    · rintro ⟨rfl, rfl⟩
      exact ⟨d, rfl, hversion, rfl⟩

/-- Decoding accepts the documents of its version as their records, refuses those of other versions
for their version, and finds every other text malformed. -/
theorem decode_accepts_exactly (text : String) :
    (∀ r, decode text = .ok r ↔ IsDocument text 1 r) ∧
    (∀ n, decode text = .error (.unsupportedVersion n) ↔ n ≠ 1 ∧ ∃ r, IsDocument text n r) ∧
    ((∃ fault, decode text = .error (.json fault)) ↔ ∀ n r, ¬ IsDocument text n r) := by
  rcases decode_cases text with ⟨fault, hdecode, hnone⟩ | ⟨version, record, hdecode, honly⟩
  · rw [hdecode]
    refine ⟨fun r => ⟨nofun, fun h => absurd h (hnone 1 r)⟩,
      fun n => ⟨nofun, fun ⟨_, r, h⟩ => absurd h (hnone n r)⟩, fun _ => hnone,
      fun _ => ⟨fault, rfl⟩⟩
  · rw [hdecode]
    simp only [honly]
    by_cases hversion : version = 1
    · subst hversion
      rw [if_pos (show 1 = documentVersion from rfl)]
      refine ⟨fun r => ?_, fun n => ⟨nofun, ?_⟩, nofun, fun h => absurd ⟨rfl, rfl⟩ (h 1 record)⟩
      · rw [Except.ok.injEq]
        exact ⟨fun h => ⟨rfl, h.symm⟩, fun h => h.2.symm⟩
      · rintro ⟨hn, r, rfl, -⟩
        exact absurd rfl hn
    · have hdifferent : version ≠ documentVersion := hversion
      rw [if_neg hdifferent]
      refine ⟨fun r => ⟨nofun, fun h => absurd h.1.symm hversion⟩, fun n => ⟨?_, ?_⟩, nofun,
        fun h => absurd ⟨rfl, rfl⟩ (h version record)⟩
      · intro heq
        cases heq
        exact ⟨hversion, record, rfl, rfl⟩
      · rintro ⟨-, r, rfl, -⟩
        rfl

end Record

end HostRegistry
