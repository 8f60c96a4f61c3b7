import HostRegistry.Proofs.Command.Output
import HostRegistry.Proofs.Json.Layout
import HostRegistry.Proofs.Record.Bare

/-!
What `show` puts out in JSON holds the record that is shown.

`IsSheet` says, without the printer, which texts are about a host and its record: objects with seven
members, of which the labels and the attributes are those of the record and the other five are the
host and the views of the labels. A record is read back from all of them, since its reader skips the
members that it does not know.
-/

set_option autoImplicit false

namespace HostRegistry

open Json (Blanks IsObject Wellformed WritesText WritesTextMap WritesTexts)

/-- A text, or `null` where there is none. -/
def Json.WritesOptionalText (w : List Char) : Option String → Prop
  | some text => WritesText w text
  | none => w = "null".toList

/-- The members of an object about a host and its record. -/
structure SheetMembers (members : List (String × List Char)) (host : String) (r : Record) :
    Prop where
  names : members.map (·.1) =
    ["hostname", "labels", "attributes", "board", "os", "build", "pools"]
  host : Once WritesText (valuesOf "hostname" members) host
  labels : Once WritesTexts (valuesOf "labels" members) r.labels
  attributes : Once WritesTextMap (valuesOf "attributes" members) r.attributes
  board : Once WritesText (valuesOf "board" members) r.board
  os : Once WritesText (valuesOf "os" members) r.os
  build : Once Json.WritesOptionalText (valuesOf "build" members) r.build?
  pools : Once WritesTexts (valuesOf "pools" members) r.pools

/-- A text that is an object about a host and its record, with any blanks around it. -/
def IsSheet (text host : String) (r : Record) : Prop :=
  ∃ members, IsObject text members ∧ SheetMembers members host r

/-! ## Reading -/

theorem Once.fills {α : Type} {form : List Char → α → Prop} {values : List (List Char)} {a : α}
    (h : Once form values a) : Fills form none values (some a) := by
  obtain ⟨w, hvalues, hw⟩ := h
  exact Or.inr ⟨rfl, w, a, hvalues, hw, rfl⟩

namespace Record

/-- A record is read from every object that has its labels and its attributes once, whatever the
other members are. -/
theorem ofJson_of_once {text : String} {members : List (String × List Char)} {r : Record}
    (h : IsObject text members)
    (hlabels : Once WritesTexts (HostRegistry.valuesOf "labels" members) r.labels)
    (hattributes : Once WritesTextMap (HostRegistry.valuesOf "attributes" members) r.attributes) :
    ofJson text = .ok r := by
  -- A version among the members would be skipped as any other that a record does not know.
  have hfilled : Draft.Filled .empty (Draft.unversioned members) (r.draft none) := by
    refine ⟨?_, ?_, ?_, ?_⟩
    · rw [Draft.valuesOf_unversioned]
      exact fills_nil_iff.mpr rfl
    · rw [Draft.valuesOf_unversioned_of_ne (by decide)]
      exact hlabels.fills
    · rw [Draft.valuesOf_unversioned_of_ne (by decide)]
      exact hattributes.fills
    · exact fun m hm _ => h.values m (List.mem_filter.mp hm).1
  exact (ofJson_iff_filled h).mpr ⟨r.draft none, hfilled, rfl⟩

/-! ## Writing -/

/-- The written build. -/
def buildChars (r : Record) : List Char :=
  match r.build? with
  | some build => Json.quote build
  | none => "null".toList

/-- The members that are written about a host. -/
def sheetMembers (host : String) (r : Record) : List (String × List Char) :=
  [("hostname", Json.quote host), ("labels", Json.texts .pretty 1 r.labels),
    ("attributes", Json.textMembers .pretty 1 r.attributes.entries),
    ("board", Json.quote r.board), ("os", Json.quote r.os), ("build", r.buildChars),
    ("pools", Json.texts .pretty 1 r.pools)]

theorem sheetChars_eq (host : String) (r : Record) :
    sheetChars host r =
      Json.object .pretty 0 ((sheetMembers host r).map fun m => Json.member .pretty m.1 m.2) :=
  rfl

theorem writesOptionalText_buildChars (r : Record) :
    Json.WritesOptionalText r.buildChars r.build? := by
  unfold buildChars
  cases r.build? with
  | none => rfl
  | some build => exact Json.writesText_quote build

theorem wellformed_buildChars (r : Record) : Wellformed r.buildChars := by
  unfold buildChars
  cases r.build? with
  | none => exact .null
  | some build => exact Json.wellformed_of_writesText (Json.writesText_quote build)

theorem wellformed_sheetMembers (host : String) (r : Record) :
    ∀ m ∈ sheetMembers host r, Wellformed m.2 := by
  have htext : ∀ text, Wellformed (Json.quote text) := fun text =>
    Json.wellformed_of_writesText (Json.writesText_quote text)
  have htexts : ∀ items, Wellformed (Json.texts .pretty 1 items) := fun items =>
    Json.wellformed_of_writesTexts (Json.writesTexts_texts .pretty 1 items)
  have hmap := Json.wellformed_of_writesTextMap
    (Json.writesTextMap_textMembers .pretty 1 r.attributes)
  simp only [sheetMembers, List.forall_mem_cons, htext, htexts, hmap, r.wellformed_buildChars,
    true_and]
  exact nofun

theorem sheetMembers_sheetMembers (host : String) (r : Record) :
    SheetMembers (sheetMembers host r) host r where
  names := rfl
  host := ⟨_, rfl, Json.writesText_quote host⟩
  labels := ⟨_, rfl, Json.writesTexts_texts .pretty 1 r.labels⟩
  attributes := ⟨_, rfl, Json.writesTextMap_textMembers .pretty 1 r.attributes⟩
  board := ⟨_, rfl, Json.writesText_quote r.board⟩
  os := ⟨_, rfl, Json.writesText_quote r.os⟩
  build := ⟨_, rfl, r.writesOptionalText_buildChars⟩
  pools := ⟨_, rfl, Json.writesTexts_texts .pretty 1 r.pools⟩

/-- What is written about a host is a sheet, and stays one if blanks follow. -/
theorem isSheet_append (host : String) (r : Record) {blanks : String}
    (hblanks : Blanks blanks.toList) : IsSheet (r.sheet host ++ blanks) host r := by
  have hobject := Json.writesObject_object .pretty 0 (sheetMembers host r)
  rw [← sheetChars_eq] at hobject
  refine ⟨sheetMembers host r, ⟨[], sheetChars host r, blanks.toList, Json.blanks_nil, hblanks, ?_,
    hobject, wellformed_sheetMembers host r⟩, sheetMembers_sheetMembers host r⟩
  rw [String.toList_append, sheet, String.toList_ofList, List.nil_append]

end Record

theorem IsSheet.ofJson {text host : String} {r : Record} (h : IsSheet text host r) :
    Record.ofJson text = .ok r := by
  obtain ⟨members, hobject, hmembers⟩ := h
  exact Record.ofJson_of_once hobject hmembers.labels hmembers.attributes

/-! ## Output -/

/-- For every host and every record, what `show` writes in JSON is a legal object about the host, and
what is read from it as a record is the record that was shown. This holds of the text and of the line
that standard output gets, on every terminal. -/
theorem shown_record_is_read_back (settings : Terminal.Settings) (timestamp host : String)
    (r : Record) :
    let output := Terminal.standardOutput settings timestamp (HostCommand.showReports host r .json)
    output = r.sheet host ++ "\n" ∧
    IsSheet (r.sheet host) host r ∧ Record.ofJson (r.sheet host) = .ok r ∧
    IsSheet output host r ∧ Record.ofJson output = .ok r := by
  intro output
  have houtput : output = r.sheet host ++ "\n" := by
    show String.join [r.sheet host ++ "\n"] = _
    rw [String.join_cons, String.join_nil, String.append_empty]
  have hsheet : IsSheet (r.sheet host) host r := by
    have hnone : Blanks "".toList := Json.blanks_nil
    have h := r.isSheet_append host hnone
    rwa [String.append_empty] at h
  have hline : IsSheet output host r := by
    rw [houtput]
    refine r.isSheet_append host fun c hc => ?_
    obtain rfl := List.mem_singleton.mp hc
    rfl
  exact ⟨houtput, hsheet, hsheet.ofJson, hline, hline.ofJson⟩

end HostRegistry
