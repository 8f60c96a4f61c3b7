import HostRegistry.Record.Views
import Mathlib.Data.List.Infix

/-!
Families of labels: what setting the value of one does to the answers of all.

A label belongs to a family if it starts with the family and a colon, and carries what comes after
that (`value?_eq_some_iff`). Two families that are `Apart` share no label, so `setValue` at one of
them leaves the readers of the other alone; the readers of the family itself answer the new value.
-/

set_option autoImplicit false

namespace HostRegistry

namespace Label

variable {family other label value : String}

/-! ## What a label carries -/

theorem toList_make (family value : String) :
    (make family value).toList = (family.toList ++ [':']) ++ value.toList := by
  rw [make, String.toList_append, String.toList_append]
  rfl

/-- A label carries a value if it is the label of the family with that value. -/
theorem value?_eq_some_iff : value? family label = some value ↔ label = make family value := by
  rw [value?, Option.map_eq_some_iff, ← String.toList_inj, toList_make]
  constructor
  · rintro ⟨rest, hrest, rfl⟩
    rw [String.toList_ofList]
    exact (List.isPrefixOf?_eq_some_iff_append_eq.mp hrest).symm
  · intro h
    exact ⟨value.toList, List.isPrefixOf?_eq_some_iff_append_eq.mpr h.symm, String.ofList_toList⟩

theorem value?_make (family value : String) : value? family (make family value) = some value :=
  value?_eq_some_iff.mpr rfl

theorem carries_make (family value : String) : carries family (make family value) = true := by
  rw [carries, value?_make]
  rfl

theorem carries_iff : carries family label = true ↔ ∃ value, label = make family value := by
  simp only [carries, Option.isSome_iff_exists, value?_eq_some_iff]

/-- The labels of a family are those that start with it and a colon. -/
theorem carries_eq_startsWith (family label : String) :
    carries family label = label.startsWith (family ++ ":") := by
  rw [Bool.eq_iff_iff, carries_iff, String.startsWith_string_iff, String.toList_append]
  constructor
  · rintro ⟨value, rfl⟩
    exact ⟨value.toList, (toList_make family value).symm⟩
  · rintro ⟨rest, hrest⟩
    refine ⟨String.ofList rest, String.toList_inj.mp ?_⟩
    rw [toList_make, String.toList_ofList]
    exact hrest.symm

/-- What is left of a text after its front is taken off. -/
theorem map_copy_dropPrefix?_eq_some_iff {text : String.Slice} {front rest : String} :
    (text.dropPrefix? front).map String.Slice.copy = some rest ↔ text.copy = front ++ rest := by
  cases hdrop : text.dropPrefix? front with
  | none =>
    rw [String.Slice.dropPrefix?_eq_none_iff, String.Slice.startsWith_string_eq_false_iff] at hdrop
    constructor
    · intro h
      cases h
    · intro h
      rw [h, String.toList_append] at hdrop
      exact absurd (List.prefix_append _ _) hdrop
  | some left =>
    rw [String.Slice.eq_append_of_dropPrefix?_string_eq_some hdrop, Option.map_some,
      Option.some.injEq, String.append_right_inj]

/-- Taking the family off a label and then the colon reads what the label carries. -/
theorem value?_eq_dropPrefix? (family label : String) :
    value? family label =
      ((label.dropPrefix? family).bind (·.dropPrefix? ":")).map String.Slice.copy := by
  ext value
  have hparts : label = make family value ↔
      (label.toSlice.dropPrefix? family).map String.Slice.copy = some (":" ++ value) := by
    rw [map_copy_dropPrefix?_eq_some_iff, String.copy_toSlice, make, String.append_assoc]
  rw [value?_eq_some_iff, hparts, String.dropPrefix?_toSlice, Option.map_bind,
    Option.bind_eq_some_iff, Option.map_eq_some_iff]
  simp only [Function.comp_apply, map_copy_dropPrefix?_eq_some_iff]

/-! ## Families that share no label -/

/-- Neither of two families, with its colon, is how the other one starts. -/
def Apart (family other : String) : Prop :=
  ¬(other ++ ":").startsWith (family ++ ":") ∧ ¬(family ++ ":").startsWith (other ++ ":")

/-- A label of one family carries nothing for a family apart from it. -/
theorem Apart.value?_eq_none (h : Apart family other) (hcarries : carries family label = true) :
    value? other label = none := by
  rw [← Option.not_isSome_iff_eq_none]
  intro hother
  change carries other label = true at hother
  rw [carries_eq_startsWith, String.startsWith_string_iff] at hcarries hother
  simp only [Apart, String.startsWith_string_iff] at h
  rcases List.prefix_or_prefix_of_prefix hcarries hother with hfront | hfront
  · exact h.1 hfront
  · exact h.2 hfront

/-- A family is how another one starts, colon included, only if the other one has a colon or is the
same. -/
theorem eq_of_startsWith (hplain : ':' ∉ other.toList)
    (h : (other ++ ":").startsWith (family ++ ":")) : family = other := by
  have hcolon : ∀ text : String, (text ++ ":").toList = text.toList ++ [':'] :=
    fun text => String.toList_append
  rw [String.startsWith_string_iff, hcolon, hcolon, List.prefix_concat_iff] at h
  rcases h with hsame | hfront
  · exact String.toList_inj.mp (List.append_cancel_right hsame)
  · exact absurd (hfront.subset (List.mem_append_right _ List.mem_cons_self)) hplain

/-- Different families without colons are apart. -/
theorem apart_of_plain (hfamily : ':' ∉ family.toList) (hother : ':' ∉ other.toList)
    (hne : family ≠ other) : Apart family other :=
  ⟨fun h => hne (eq_of_startsWith hother h), fun h => hne (eq_of_startsWith hfamily h).symm⟩

end Label

namespace Record

variable {family other : String}

/-! ## Readers -/

/-- The first value of a family heads the list of its values. -/
theorem findSome?_value? (r : Record) (family : String) :
    r.labels.findSome? (Label.value? family) = (r.valuesOf family).head? :=
  List.head?_filterMap.symm

theorem valueOf_eq (r : Record) (family : String) :
    r.valueOf family = (r.valuesOf family).head?.getD "" := by
  rw [valueOf, findSome?_value?]

theorem firstValue?_eq (r : Record) (families : List String) :
    r.firstValue? families = families.findSome? fun family => (r.valuesOf family).head? := by
  simp only [firstValue?, findSome?_value?]

/-! ## Setting a value -/

/-- No label is left that carried something for the family before it got its value. -/
theorem filterMap_others (labels : List String) (family : String) :
    (labels.filter (!Label.carries family ·)).filterMap (Label.value? family) = [] := by
  rw [List.filterMap_eq_nil_iff]
  intro label hlabel
  have hnone := (List.mem_filter.mp hlabel).2
  rw [Label.carries, Bool.not_eq_true', Option.isSome_eq_false_iff, Option.isNone_iff_eq_none] at hnone
  exact hnone

theorem filter_make (family value : String) :
    [Label.make family value].filter (!Label.carries family ·) = [] :=
  List.filter_cons_of_neg (by rw [Label.carries_make]; exact Bool.false_ne_true)

/-- A family has the value that was set, and no other. -/
theorem valuesOf_setValue (r : Record) (family value : String) :
    (r.setValue family value).valuesOf family = [value] := by
  rw [valuesOf, setValue, List.filterMap_append, filterMap_others, List.nil_append]
  exact List.filterMap_cons_some (Label.value?_make family value)

/-- The labels of other families, and those of none, stay as they are. -/
theorem filter_setValue (r : Record) (family value : String) :
    (r.setValue family value).labels.filter (!Label.carries family ·) =
      r.labels.filter (!Label.carries family ·) := by
  rw [setValue, List.filter_append, filter_make, List.append_nil, List.filter_filter]
  simp only [Bool.and_self]

theorem make_not_mem_others (labels : List String) (family value : String) :
    Label.make family value ∉ labels.filter (!Label.carries family ·) := by
  intro hmem
  have hother := (List.mem_filter.mp hmem).2
  rw [Label.carries_make] at hother
  cases hother

theorem count_setValue (r : Record) (family value : String) :
    (r.setValue family value).labels.count (Label.make family value) = 1 := by
  rw [setValue, List.count_append, List.count_eq_zero.mpr (make_not_mem_others _ family value),
    List.count_singleton_self]

/-- Families apart from the one that is set keep their values. -/
theorem valuesOf_setValue_of_apart (h : Label.Apart family other) (r : Record) (value : String) :
    (r.setValue family value).valuesOf other = r.valuesOf other := by
  have hmake := h.value?_eq_none (Label.carries_make family value)
  rw [valuesOf, valuesOf, setValue, List.filterMap_append, List.filterMap_filter,
    List.filterMap_cons_none hmake, List.filterMap_nil, List.append_nil]
  apply List.filterMap_congr
  intro label _
  split
  next => rfl
  next hcarries => exact (h.value?_eq_none (by simpa using hcarries)).symm

/-- Of two values set one after the other the second one stays. -/
theorem setValue_setValue (r : Record) (family value next : String) :
    (r.setValue family value).setValue family next = r.setValue family next := by
  show Record.mk _ _ = Record.mk _ _
  rw [filter_setValue]
  rfl

/-- The build is the value set for the preferred family. -/
theorem build?_setValue (r : Record) (value : String) :
    (r.setValue "cros-version" value).build? = some value := by
  rw [build?, firstValue?_eq, buildFamilies, List.findSome?_cons, valuesOf_setValue]
  rfl

theorem colon_not_mem_buildFamilies : ∀ family ∈ buildFamilies, ':' ∉ family.toList := by
  decide

/-- Setting a family that names no build leaves the build as it is. -/
theorem build?_setValue_of_not_mem (hmem : family ∉ buildFamilies) (hplain : ':' ∉ family.toList)
    (r : Record) (value : String) : (r.setValue family value).build? = r.build? := by
  rw [build?, build?, firstValue?_eq, firstValue?_eq, ← List.head?_filterMap, ← List.head?_filterMap]
  apply congrArg List.head?
  apply List.filterMap_congr
  intro other hother
  have hapart : Label.Apart family other :=
    Label.apart_of_plain hplain (colon_not_mem_buildFamilies other hother) fun heq =>
      hmem (heq ▸ hother)
  rw [valuesOf_setValue_of_apart hapart]

/-- Setting a value and reading it make a lawful pair, though the writer looks for the family with
its colon and the readers take off first the one and then the other. What was set is read, and once;
the labels of other families, the attributes and the readers of families apart stay as they are; the
last of several values counts. The build follows the preferred family, and no family but those that
name builds. -/
theorem setValue_lawful (r : Record) (family value : String) :
    let after := r.setValue family value
    (∀ label, Label.value? family label =
      ((label.dropPrefix? family).bind (·.dropPrefix? ":")).map String.Slice.copy) ∧
    after.valuesOf family = [value] ∧ after.valueOf family = value ∧
    after.labels.count (family ++ ":" ++ value) = 1 ∧
    after.labels.filter (!·.startsWith (family ++ ":")) =
      r.labels.filter (!·.startsWith (family ++ ":")) ∧
    after.attributes = r.attributes ∧
    (∀ other, Label.Apart family other →
      after.valuesOf other = r.valuesOf other ∧ after.valueOf other = r.valueOf other) ∧
    (∀ next, after.setValue family next = r.setValue family next) ∧
    (family = "cros-version" → after.build? = some value) ∧
    (family ∉ buildFamilies → ':' ∉ family.toList → after.build? = r.build?) := by
  intro after
  have hvalues : after.valuesOf family = [value] := valuesOf_setValue r family value
  have hvalue : after.valueOf family = value := by
    rw [valueOf_eq, hvalues]
    rfl
  have hkept := filter_setValue r family value
  simp only [Label.carries_eq_startsWith] at hkept
  have hapart : ∀ other, Label.Apart family other →
      after.valuesOf other = r.valuesOf other ∧ after.valueOf other = r.valueOf other := by
    intro other h
    have hsame : after.valuesOf other = r.valuesOf other := valuesOf_setValue_of_apart h r value
    exact ⟨hsame, by rw [valueOf_eq, valueOf_eq, hsame]⟩
  have hbuild : family = "cros-version" → after.build? = some value := by
    rintro rfl
    exact build?_setValue r value
  exact ⟨Label.value?_eq_dropPrefix? family, hvalues, hvalue, count_setValue r family value, hkept, rfl,
    hapart, setValue_setValue r family value, hbuild,
    fun hmem hplain => build?_setValue_of_not_mem hmem hplain r value⟩

end Record

end HostRegistry
