import HostRegistry.Proofs.Json.Accepted

/-!
The members of an object.

A text is the object of one list of members only: `readMembersOf` is a reader that gives the members
as they are written, and being exact it finds those of every object. What is read into texts, lists
and maps of texts or naturals is well-formed, so any struct is read from an object of this kind.
-/

set_option autoImplicit false

namespace HostRegistry.Json

/-! ## Typed values are well-formed -/

theorem stringForm_of_spells {w cs : List Char} (h : Spells w cs) : StringForm w := by
  induction h with
  | nil => exact .nil
  | plain hc _ ih => exact .plain hc ih
  | escape he _ ih =>
    cases he with
    | letter hl => exact .escape (.letter hl) ih
    | code hw => exact .escape (.code hw) ih
    | pair hw hw' =>
      -- A pair is two escapes, one after the other.
      have hlow := StringForm.escape (.code hw') ih
      have hpair := StringForm.escape (.code hw) hlow
      simpa only [List.cons_append, List.append_assoc] using hpair

theorem writesString_of_writesText {w : List Char} {text : String} (h : WritesText w text) :
    WritesString w := by
  obtain ⟨u, hu, rfl⟩ := h
  exact ⟨u, stringForm_of_spells hu, rfl⟩

theorem wellformed_of_writesText {w : List Char} {text : String} (h : WritesText w text) :
    Wellformed w :=
  .string (writesString_of_writesText h)

theorem wellformed_of_writesTexts {w : List Char} {texts : List String} (h : WritesTexts w texts) :
    Wellformed w := by
  obtain ⟨items, hblock, hitems, -⟩ := h
  apply Wellformed.list hblock
  intro item hitem
  obtain ⟨i, hi, rfl⟩ := List.mem_map.mp hitem
  exact wellformed_of_writesText (hitems i hi)

theorem wellformed_of_writesNatural32 {w : List Char} {n : Nat} (h : WritesNatural32 w n) :
    Wellformed w := by
  obtain ⟨-, rfl⟩ := h
  refine .number ⟨[], _, [], [], Or.inl rfl, whole_toDigits n, Or.inl rfl, Or.inl rfl, ?_⟩
  rw [List.append_nil, List.append_nil, List.nil_append]

/-- An object is well-formed if its values are. -/
theorem wellformed_of_writesObject {w : List Char} {members : List (String × List Char)}
    (h : WritesObject w members) (hvalues : ∀ m ∈ members, Wellformed m.2) : Wellformed w := by
  obtain ⟨parts, hblock, hparts, rfl⟩ := h
  have hmap : (parts.map (·.2)).map Parts.text = parts.map (·.2.text) := List.map_map
  rw [← hmap] at hblock
  apply Wellformed.object hblock
  · intro p hp
    obtain ⟨q, hq, rfl⟩ := List.mem_map.mp hp
    exact writesString_of_writesText (hparts q hq).1
  · intro p hp
    obtain ⟨q, hq, rfl⟩ := List.mem_map.mp hp
    exact (hparts q hq).2
  · intro p hp
    obtain ⟨q, hq, rfl⟩ := List.mem_map.mp hp
    exact hvalues _ (List.mem_map_of_mem hq)

theorem wellformed_of_writesTextMap {w : List Char} {m : SortedMap String String}
    (h : WritesTextMap w m) : Wellformed w := by
  obtain ⟨items, hobject, hitems, -⟩ := h
  apply wellformed_of_writesObject hobject
  intro member hmember
  obtain ⟨i, hi, rfl⟩ := List.mem_map.mp hmember
  exact wellformed_of_writesText (hitems i hi)

/-! ## Values as they are written -/

/-- Gives what a reader takes, without the blanks before it. -/
def Reader.written {α : Type} (read : Reader α) : Reader (List Char) := fun s =>
  match read s with
  | .error fault => .error fault
  | .ok (_, rest) =>
    .ok ((skipBlanks s).take ((skipBlanks s).length - rest.1.length), rest)

theorem exact_written {α : Type} {read : Reader α} {form : List Char → α → Prop}
    (h : Exact read form) : Exact read.written fun w value => (∃ a, form w a) ∧ value = w where
  reads := by
    rintro w _ ⟨⟨a, ha⟩, rfl⟩ blanks rest hblanks hrest
    obtain ⟨hlt, hread⟩ := h.reads ha blanks rest hblanks hrest
    obtain ⟨c, u, rfl, hblank, -⟩ := h.begins ha
    refine ⟨hlt, ?_⟩
    have hskip : skipBlanks (blanks ++ (c :: u ++ rest)) = c :: u ++ rest :=
      skipBlanks_append_cons hblanks hblank _
    simp only [Reader.written, hread, hskip, List.length_append, Nat.add_sub_cancel,
      List.take_left']
  takes := by
    rintro s rest value ⟨hlt, hread⟩
    unfold Reader.written at hread
    split at hread
    next => cases hread
    next a mid ha =>
      cases hread
      obtain ⟨l, w, hl, hs, hw⟩ := h.takes ⟨hlt, ha⟩
      obtain ⟨c, u, rfl, hblank, -⟩ := h.begins hw
      refine ⟨l, _, hl, hs, ⟨a, hw⟩, ?_⟩
      have hskip : skipBlanks s = c :: u ++ rest := by
        rw [hs]
        exact skipBlanks_append_cons hl hblank _
      rw [hskip, List.length_append, Nat.add_sub_cancel, List.take_left']
      rfl
  begins := fun ⟨⟨_, ha⟩, _⟩ => h.begins ha

/-! ## Members as they are written -/

/-- Gives the members of an object. -/
def readMembersOf : Reader (List (String × List Char)) :=
  (readAfter '{' .map
    (readMembers (fun sofar key => .ok (skipValue.written.map fun w => (key, w) :: sofar)) [])).map
      List.reverse

/-- Members put one before the other are the members in reverse. -/
theorem chain_members_iff {sofar final members : List (String × List Char)} :
    Chain (fun sofar (m : String × List Char) next => Wellformed m.2 ∧ m :: sofar = next)
        sofar members final ↔
      (∀ m ∈ members, Wellformed m.2) ∧ final = members.reverse ++ sofar := by
  induction members generalizing sofar with
  | nil => exact ⟨fun h => ⟨nofun, h.symm⟩, fun h => h.2.symm⟩
  | cons m members ih =>
    rw [List.forall_mem_cons, List.reverse_cons, List.append_assoc]
    constructor
    · rintro ⟨_, ⟨hm, rfl⟩, hrest⟩
      obtain ⟨hmembers, hfinal⟩ := ih.mp hrest
      exact ⟨⟨hm, hmembers⟩, hfinal⟩
    · rintro ⟨⟨hm, hmembers⟩, hfinal⟩
      exact ⟨_, ⟨hm, rfl⟩, ih.mpr ⟨hmembers, hfinal⟩⟩

theorem exact_readMembersOf : Exact readMembersOf fun w members =>
    WritesObject w members ∧ ∀ m ∈ members, Wellformed m.2 := by
  have hmembers : MembersExact
      (fun sofar key => .ok (skipValue.written.map fun w => (key, w) :: sofar))
      (fun sofar (m : String × List Char) next => Wellformed m.2 ∧ m :: sofar = next) := by
    refine ⟨?_, nofun⟩
    rintro sofar key read hread
    cases hread
    refine ((exact_written exact_skipValue).map _).congr fun w next => ?_
    constructor
    · rintro ⟨_, ⟨⟨_, hw⟩, rfl⟩, rfl⟩
      exact ⟨hw, rfl⟩
    · rintro ⟨hw, rfl⟩
      exact ⟨w, ⟨⟨(), hw⟩, rfl⟩, rfl⟩
  have hobject : Exact
      (readAfter '{' .map
        (readMembers (fun sofar key => .ok (skipValue.written.map fun w => (key, w) :: sofar)) []))
      (ObjectForm (fun sofar m next => Wellformed m.2 ∧ m :: sofar = next) []) :=
    exact_after rfl (by decide) .map ObjectForm.exists_cons hmembers.takes_readMembers_iff
  refine (hobject.map List.reverse).congr fun w members => ?_
  constructor
  · rintro ⟨final, ⟨_, hw, hchain⟩, rfl⟩
    obtain ⟨hvalues, rfl⟩ := chain_members_iff.mp hchain
    rw [List.append_nil, List.reverse_reverse]
    exact ⟨hw, hvalues⟩
  · rintro ⟨hw, hvalues⟩
    refine ⟨members.reverse, ⟨members, hw, chain_members_iff.mpr ⟨hvalues, ?_⟩⟩, ?_⟩
    · rw [List.append_nil]
    · rw [List.reverse_reverse]

/-! ## Objects -/

/-- A text that is an object of these members, with any blanks around it. -/
def IsObject (text : String) (members : List (String × List Char)) : Prop :=
  ∃ l w m, Blanks l ∧ Blanks m ∧ text.toList = l ++ (w ++ m) ∧ WritesObject w members ∧
    ∀ p ∈ members, Wellformed p.2

theorem isObject_iff {text : String} {members : List (String × List Char)} :
    IsObject text members ↔ readAll readMembersOf text = .ok members :=
  exact_readMembersOf.readAll_iff.symm

/-- A text is the object of one list of members only. -/
theorem IsObject.unique {text : String} {members other : List (String × List Char)}
    (h : IsObject text members) (hother : IsObject text other) : members = other :=
  Except.ok.inj ((isObject_iff.mp h).symm.trans (isObject_iff.mp hother))

theorem IsObject.values {text : String} {members : List (String × List Char)}
    (h : IsObject text members) : ∀ p ∈ members, Wellformed p.2 := by
  obtain ⟨-, -, -, -, -, -, -, hvalues⟩ := h
  exact hvalues

/-- A text that has an opening brace after its blanks. -/
def OpensObject (text : String) : Prop := ∃ u, skipBlanks text.toList = '{' :: u

theorem IsObject.opens {text : String} {members : List (String × List Char)}
    (h : IsObject text members) : OpensObject text := by
  obtain ⟨l, w, m, hl, -, htext, ⟨parts, hblock, -, -⟩, -⟩ := h
  obtain ⟨u, rfl⟩ := hblock.exists_cons
  exact ⟨u ++ m, by rw [htext]; exact skipBlanks_append_cons hl rfl _⟩

section Struct

variable {σ : Type} {fields : List (Field σ)} {form : String → σ → List Char → σ → Prop}
  {name text : String} {state final : σ} {members : List (String × List Char)}

/-- The values that the fields of a struct can have are well-formed. -/
def FormsWellformed (form : String → σ → List Char → σ → Prop) : Prop :=
  ∀ name state w next, form name state w next → Wellformed w

theorem FormsWellformed.values (h : FormsWellformed form)
    (hchain : Chain (MemberStep fields form) state members final) : ∀ m ∈ members, Wellformed m.2 := by
  induction members generalizing state with
  | nil => exact nofun
  | cons m members ih =>
    obtain ⟨next, hstep, hrest⟩ := hchain
    refine List.forall_mem_cons.mpr ⟨?_, ih hrest⟩
    unfold MemberStep at hstep
    split at hstep
    next field _ => exact h field.name state m.2 next hstep.2
    next => exact hstep.1

/-- A struct that is read from a text with an opening brace is read from the members of an object. -/
theorem exists_isObject_of_readStruct (hfields : FieldsExact fields form)
    (hform : FormsWellformed form) (hopens : OpensObject text)
    (hread : readAll (readStruct name fields state) text = .ok final) :
    ∃ members, IsObject text members ∧ Chain (MemberStep fields form) state members final ∧
      missing? final fields 0 = none := by
  obtain ⟨l, w, m, hl, hm, htext, hstruct, hmissing⟩ :=
    (exact_readStruct name hfields state).readAll_iff.mp hread
  rcases hstruct with ⟨members, hobject, hchain⟩ | ⟨left, hlist⟩
  · exact ⟨members, ⟨l, w, m, hl, hm, htext, hobject, hform.values hchain⟩, hchain, hmissing⟩
  · obtain ⟨u, rfl⟩ := hlist.exists_cons
    obtain ⟨v, hskip⟩ := hopens
    rw [htext, List.cons_append, skipBlanks_append_cons hl rfl] at hskip
    cases hskip

/-- A struct is read from an object as its members say. -/
theorem IsObject.readStruct_iff (h : IsObject text members) (hfields : FieldsExact fields form)
    (hform : FormsWellformed form) :
    readAll (readStruct name fields state) text = .ok final ↔
      Chain (MemberStep fields form) state members final ∧ missing? final fields 0 = none := by
  constructor
  · intro hread
    obtain ⟨other, hother, hchain⟩ := exists_isObject_of_readStruct hfields hform h.opens hread
    rwa [← h.unique hother] at hchain
  · rintro ⟨hchain, hmissing⟩
    obtain ⟨l, w, m, hl, hm, htext, hobject, -⟩ := h
    exact (exact_readStruct name hfields state).readAll_iff.mpr
      ⟨l, w, m, hl, hm, htext, Or.inl ⟨members, hobject, hchain⟩, hmissing⟩

end Struct

end HostRegistry.Json
