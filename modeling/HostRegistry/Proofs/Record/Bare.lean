import HostRegistry.Proofs.Json.Members
import HostRegistry.Proofs.Record.Accepted
import HostRegistry.Proofs.Record.Stored

/-!
The bare form of a record, and what it has in common with stored documents.

The reader of the bare form skips the version as it skips every other member, so it takes what it
would take without it. An object is a document exactly if it is a bare form and has the version
once, written `1`.
-/

set_option autoImplicit false

namespace HostRegistry

open Json (Chain IsObject Wellformed WritesNatural32)

namespace Draft

/-- The fields of the bare form. -/
def bareFields : List (Json.Field Draft) := [labelsField, attributesField]

theorem bareFieldsExact : Json.FieldsExact bareFields FieldForm :=
  fun field hfield => fieldsExact field (List.mem_cons_of_mem _ hfield)

theorem formsWellformed : Json.FormsWellformed FieldForm := by
  rintro name d w next ⟨part, -, a, ha, -⟩
  cases part with
  | version => exact Json.wellformed_of_writesNatural32 ha
  | labels => exact Json.wellformed_of_writesTexts ha
  | attributes => exact Json.wellformed_of_writesTextMap ha

/-! ## Members other than the version -/

/-- The members with other names. -/
def unversioned (members : List (String × List Char)) : List (String × List Char) :=
  members.filter (·.1 ≠ "serializer_version")

variable {d final : Draft} {members : List (String × List Char)}

theorem memberStep_bare_version {w : List Char} {next : Draft} :
    Json.MemberStep bareFields FieldForm d ("serializer_version", w) next ↔
      Wellformed w ∧ next = d :=
  Iff.rfl

theorem memberStep_bare_of_ne {m : String × List Char} (hname : m.1 ≠ "serializer_version")
    {next : Draft} : Json.MemberStep bareFields FieldForm d m next ↔
      Json.MemberStep documentFields FieldForm d m next := by
  have hfind : documentFields.find? (·.name = m.1) = bareFields.find? (·.name = m.1) :=
    List.find?_cons_of_neg fun heq => hname (of_decide_eq_true heq).symm
  rw [Json.MemberStep, Json.MemberStep, hfind]

/-- The bare form is filled by the members other than the version. -/
theorem chain_bare_iff (hvalues : ∀ m ∈ members, Wellformed m.2) :
    Chain (Json.MemberStep bareFields FieldForm) d members final ↔
      Filled d (unversioned members) final := by
  induction members generalizing d with
  | nil => exact filled_nil_iff.symm
  | cons m members ih =>
    obtain ⟨name, w⟩ := m
    obtain ⟨hw, hrest⟩ := List.forall_mem_cons.mp hvalues
    by_cases hname : name = "serializer_version"
    · subst hname
      have hfilter : unversioned (("serializer_version", w) :: members) = unversioned members :=
        List.filter_cons_of_neg (by simp)
      rw [hfilter, ← ih hrest]
      constructor
      · rintro ⟨next, hstep, hchain⟩
        obtain ⟨-, rfl⟩ := memberStep_bare_version.mp hstep
        exact hchain
      · exact fun hchain => ⟨d, memberStep_bare_version.mpr ⟨hw, rfl⟩, hchain⟩
    · have hfilter : unversioned ((name, w) :: members) = (name, w) :: unversioned members :=
        List.filter_cons_of_pos (decide_eq_true hname)
      rw [hfilter, filled_cons_iff]
      exact exists_congr fun next => and_congr (memberStep_bare_of_ne hname) (ih hrest)

theorem valuesOf_unversioned_of_ne {name : String} (hname : name ≠ "serializer_version") :
    valuesOf name (unversioned members) = valuesOf name members := by
  rw [valuesOf, valuesOf, unversioned, List.filter_filter]
  congr 2
  funext m
  by_cases hm : m.1 = name
  · simp [hm, hname]
  · simp [hm]

theorem valuesOf_unversioned : valuesOf "serializer_version" (unversioned members) = [] := by
  rw [valuesOf, unversioned, List.filter_filter]
  simp

/-- A document is filled by its version and by the other members. -/
theorem filled_iff_unversioned (hvalues : ∀ m ∈ members, Wellformed m.2) :
    Filled d members final ↔
      Fills WritesNatural32 d.version (valuesOf "serializer_version" members) final.version ∧
        Filled { d with version := none } (unversioned members) { final with version := none } := by
  constructor
  · rintro ⟨hversion, hlabels, hattributes, hothers⟩
    refine ⟨hversion, ?_, ?_, ?_, ?_⟩
    · rw [valuesOf_unversioned]
      exact fills_nil_iff.mpr rfl
    · rwa [valuesOf_unversioned_of_ne (by decide)]
    · rwa [valuesOf_unversioned_of_ne (by decide)]
    · exact fun m hm => hothers m (List.mem_filter.mp hm).1
  · rintro ⟨hversion, -, hlabels, hattributes, -⟩
    rw [valuesOf_unversioned_of_ne (by decide)] at hlabels hattributes
    exact ⟨hversion, hlabels, hattributes, fun m hm _ => hvalues m hm⟩

end Draft

/-! ## The two readers -/

namespace Record

variable {text : String} {members : List (String × List Char)} {r : Record}

theorem getD_version_eq_iff {d : Draft} :
    d.version.getD 0 = documentVersion ↔ d.version = some documentVersion := by
  cases d.version with
  | none => simp [documentVersion]
  | some n => exact Option.some_inj.symm

/-- A record is decoded from the draft that is read, if it has the right version. -/
theorem decode_eq_ok_iff : decode text = .ok r ↔ ∃ d,
    Json.readAll (Json.readStruct "Document" Draft.documentFields .empty) text = .ok d ∧
      d.version = some documentVersion ∧ d.record = r := by
  rw [decode, show [Draft.versionField, Draft.labelsField, Draft.attributesField] =
    Draft.documentFields from rfl]
  cases Json.readAll (Json.readStruct "Document" Draft.documentFields .empty) text with
  | error fault =>
    constructor
    · intro h
      cases h
    · intro h
      obtain ⟨d, hd, -⟩ := h
      cases hd
  | ok d =>
    simp only [getD_version_eq_iff]
    constructor
    · intro h
      split at h
      next hd =>
        cases h
        exact ⟨d, rfl, hd, rfl⟩
      next => cases h
    · intro h
      obtain ⟨_, hd, hdversion, rfl⟩ := h
      cases hd
      rw [if_pos hdversion]

/-- An object is decoded as its members fill a draft of the right version. -/
theorem decode_iff_filled (h : IsObject text members) :
    decode text = .ok r ↔
      ∃ d, Draft.Filled .empty members d ∧ d.version = some documentVersion ∧ d.record = r := by
  rw [decode_eq_ok_iff]
  apply exists_congr
  intro d
  rw [h.readStruct_iff Draft.fieldsExact Draft.formsWellformed, Draft.chain_members_iff,
    Draft.missing?_eq_none_iff]
  constructor
  · rintro ⟨⟨hfilled, -⟩, hversion, hrecord⟩
    exact ⟨hfilled, hversion, hrecord⟩
  · rintro ⟨hfilled, hversion, hrecord⟩
    exact ⟨⟨hfilled, _, hversion⟩, hversion, hrecord⟩

/-- A record in the bare form is that of the draft that is read. -/
theorem ofJson_eq_ok_iff : ofJson text = .ok r ↔ ∃ d,
    Json.readAll (Json.readStruct "HostInfo" Draft.bareFields .empty) text = .ok d ∧
      d.record = r := by
  rw [ofJson, show [Draft.labelsField, Draft.attributesField] = Draft.bareFields from rfl]
  cases Json.readAll (Json.readStruct "HostInfo" Draft.bareFields .empty) text with
  | error fault =>
    constructor
    · intro h
      cases h
    · intro h
      obtain ⟨d, hd, -⟩ := h
      cases hd
  | ok d =>
    constructor
    · intro h
      cases h
      exact ⟨d, rfl, rfl⟩
    · intro h
      obtain ⟨_, hd, rfl⟩ := h
      cases hd
      rfl

/-- An object is read in the bare form as its members without the version fill a draft. -/
theorem ofJson_iff_filled (h : IsObject text members) :
    ofJson text = .ok r ↔
      ∃ d, Draft.Filled .empty (Draft.unversioned members) d ∧ d.record = r := by
  rw [ofJson_eq_ok_iff]
  apply exists_congr
  intro d
  rw [h.readStruct_iff Draft.bareFieldsExact Draft.formsWellformed, Draft.chain_bare_iff h.values]
  exact and_congr_left' (and_iff_left rfl)

/-- The written form of the version is one digit. -/
theorem once_version_iff {values : List (List Char)} :
    Fills WritesNatural32 none values (some documentVersion) ↔ values = [['1']] := by
  rw [← once_iff]
  constructor
  · rintro ⟨w, rfl, -, rfl⟩
    rfl
  · rintro rfl
    exact ⟨_, rfl, by decide, rfl⟩

theorem decode_iff_ofJson (h : IsObject text members) :
    decode text = .ok r ↔
      ofJson text = .ok r ∧ HostRegistry.valuesOf "serializer_version" members = [['1']] := by
  rw [decode_iff_filled h, ofJson_iff_filled h]
  have hvalues := h.values
  constructor
  · rintro ⟨d, hfilled, hversion, rfl⟩
    obtain ⟨hfills, hrest⟩ := (Draft.filled_iff_unversioned hvalues).mp hfilled
    rw [hversion] at hfills
    exact ⟨⟨_, hrest, rfl⟩, once_version_iff.mp hfills⟩
  · rintro ⟨⟨d, hrest, rfl⟩, hversion⟩
    -- No other member fills the version, so the draft of the bare form has none to be lost.
    have hnone : d.version = none := by
      have hfills := hrest.version
      rwa [Draft.valuesOf_unversioned, fills_nil_iff] at hfills
    refine ⟨{ d with version := some documentVersion }, ?_, rfl, rfl⟩
    rw [Draft.filled_iff_unversioned hvalues]
    refine ⟨once_version_iff.mpr hversion, ?_⟩
    obtain ⟨version, labels, attributes⟩ := d
    obtain rfl : version = none := hnone
    exact hrest

/-! ## Written forms -/

/-- A record is read from its bare form. -/
theorem ofJson_toJson (r : Record) : ofJson r.toJson = .ok r := by
  have hreads : Json.Reads (Json.readStruct "HostInfo" Draft.bareFields .empty)
      (Json.object .compact 0 (r.jsonMembers .compact)) (r.draft none) :=
    Json.reads_struct .compact 0 "HostInfo" (chain_jsonMembers .compact none r rfl rfl) rfl
  exact ofJson_eq_ok_iff.mpr ⟨r.draft none, Json.readAll_written hreads, rfl⟩

/-- What is read from a text with an opening brace is read from an object. -/
theorem exists_isObject (hopens : Json.OpensObject text)
    (hread : decode text = .ok r ∨ ofJson text = .ok r) : ∃ members, IsObject text members := by
  rcases hread with hdecode | hof
  · obtain ⟨d, hd, -⟩ := decode_eq_ok_iff.mp hdecode
    obtain ⟨members, hobject, -⟩ :=
      Json.exists_isObject_of_readStruct Draft.fieldsExact Draft.formsWellformed hopens hd
    exact ⟨members, hobject⟩
  · obtain ⟨d, hd, -⟩ := ofJson_eq_ok_iff.mp hof
    obtain ⟨members, hobject, -⟩ :=
      Json.exists_isObject_of_readStruct Draft.bareFieldsExact Draft.formsWellformed hopens hd
    exact ⟨members, hobject⟩

theorem opensObject_encode (r : Record) : Json.OpensObject r.encode := by
  rw [Json.OpensObject, encode, String.toList_ofList]
  exact ⟨_, rfl⟩

/-- The two forms of a record agree. An object is decoded as a record exactly if the record is read
from it in the bare form and its version is there once, written `1`; every text with an opening brace
from which either reader takes a record is such an object. And each record is read in the bare form
from its bare form and from its document. -/
theorem forms_agree :
    (∀ text members, IsObject text members → ∀ r, decode text = .ok r ↔
      ofJson text = .ok r ∧ HostRegistry.valuesOf "serializer_version" members = [['1']]) ∧
    (∀ text r, Json.OpensObject text → decode text = .ok r ∨ ofJson text = .ok r →
      ∃ members, IsObject text members) ∧
    ∀ r : Record, ofJson r.toJson = .ok r ∧ ofJson r.encode = .ok r := by
  refine ⟨fun text members h r => decode_iff_ofJson h, fun text r => exists_isObject, fun r => ?_⟩
  obtain ⟨members, hobject⟩ := exists_isObject r.opensObject_encode (Or.inl r.decode_encode)
  exact ⟨r.ofJson_toJson, ((decode_iff_ofJson hobject).mp r.decode_encode).1⟩

end Record

end HostRegistry
