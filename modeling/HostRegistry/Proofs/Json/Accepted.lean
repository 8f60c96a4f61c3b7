import HostRegistry.Proofs.Json.Skipped
import HostRegistry.Proofs.SortedMap

/-!
The readers for values of a known shape take exactly the texts of that shape.

A struct is read through its fields, so `exact_readStruct` asks only that the readers of the fields
are exact. Its members take a state to the next one by their names; members that are no field are
well-formed and leave the state as it is.
-/

set_option autoImplicit false

namespace HostRegistry.Json

theorem Exact.congr {α : Type} {read : Reader α} {form form' : List Char → α → Prop}
    (h : Exact read form) (hform : ∀ w value, form w value ↔ form' w value) : Exact read form' where
  reads := fun hw => h.reads ((hform _ _).mpr hw)
  takes := by
    intro s rest value htakes
    obtain ⟨l, w, hl, hs, hw⟩ := h.takes htakes
    exact ⟨l, w, hl, hs, (hform w value).mp hw⟩
  begins := fun hw => h.begins ((hform _ _).mpr hw)

/-! ## Texts, numbers, lists and maps -/

theorem exact_readText : Exact readText WritesText := by
  refine exact_after rfl (by decide) .string ?_ ?_
  · rintro w text ⟨u, -, rfl⟩
    exact ⟨_, rfl⟩
  · intro s rest text
    rw [takes_readString_iff]
    constructor
    · rintro ⟨u, hu, rfl⟩
      exact ⟨u ++ ['"'], ⟨u, hu, rfl⟩, by rw [List.append_assoc]; rfl⟩
    · rintro ⟨_, ⟨u, hu, heq⟩, rfl⟩
      obtain ⟨-, rfl⟩ := List.cons.inj heq
      exact ⟨u, hu, by rw [List.append_assoc]; rfl⟩

theorem exact_readNatural32 : Exact readNatural32 WritesNatural32 where
  reads := by
    rintro w n ⟨hn, rfl⟩
    exact reads_natural32 hn
  takes := by
    intro s rest n htakes
    obtain ⟨w, hw, hskip⟩ := writesNatural32_of_takes htakes
    obtain ⟨l, hl, hs⟩ := blanks_of_skipBlanks hskip
    exact ⟨l, w, hl, hs, hw⟩
  begins := by
    rintro w n ⟨-, rfl⟩
    obtain ⟨c, r, hcons, hc⟩ := (whole_toDigits n).exists_cons
    exact ⟨c, r, hcons, isBlank_of_isDigit hc, not_special_of_numeric (Or.inr hc) (by decide)⟩

/-- Texts put one before the other are the texts of a list in reverse. -/
theorem chain_texts_iff {sofar final : List String} {items : List (List Char)} :
    Chain (fun sofar w next => ∃ a, WritesText w a ∧ a :: sofar = next) sofar items final ↔
      ∃ texts : List (String × List Char), items = texts.map (·.2) ∧
        (∀ i ∈ texts, WritesText i.2 i.1) ∧ final = (texts.map (·.1)).reverse ++ sofar := by
  constructor
  · intro h
    induction items generalizing sofar with
    | nil => exact ⟨[], rfl, nofun, h.symm⟩
    | cons w items ih =>
      obtain ⟨_, ⟨a, ha, rfl⟩, hrest⟩ := h
      obtain ⟨texts, rfl, htexts, rfl⟩ := ih hrest
      refine ⟨(a, w) :: texts, rfl, List.forall_mem_cons.mpr ⟨ha, htexts⟩, ?_⟩
      rw [List.map_cons, List.reverse_cons, List.append_assoc]
      rfl
  · rintro ⟨texts, rfl, htexts, rfl⟩
    induction texts generalizing sofar with
    | nil => rfl
    | cons i texts ih =>
      obtain ⟨hi, htexts⟩ := List.forall_mem_cons.mp htexts
      refine ⟨i.1 :: sofar, ⟨i.1, hi, rfl⟩, ?_⟩
      rw [List.map_cons, List.reverse_cons, List.append_assoc]
      exact ih htexts

theorem exact_readTexts : Exact readTexts WritesTexts := by
  have helements : ElementsExact (fun _ => True)
      (fun sofar => some (readText.map (· :: sofar)))
      (fun sofar w next => ∃ a, WritesText w a ∧ a :: sofar = next) := by
    refine ⟨?_, nofun, fun _ _ => trivial⟩
    rintro sofar read - hread
    cases hread
    exact exact_readText.map _
  have hlist : Exact
      (readAfter '[' .sequence (readElements (fun sofar => some (readText.map (· :: sofar))) []))
      (ListForm (fun sofar w next => ∃ a, WritesText w a ∧ a :: sofar = next) []) :=
    exact_after rfl (by decide) .sequence ListForm.exists_cons
      (helements.takes_readElements_iff trivial)
  refine (hlist.map List.reverse).congr fun w texts => ?_
  constructor
  · rintro ⟨final, ⟨_, hblock, hchain⟩, rfl⟩
    obtain ⟨items, rfl, hitems, rfl⟩ := chain_texts_iff.mp hchain
    exact ⟨items, hblock, hitems, by rw [List.append_nil, List.reverse_reverse]⟩
  · rintro ⟨items, hblock, hitems, rfl⟩
    refine ⟨_, ⟨_, hblock, chain_texts_iff.mpr ⟨items, rfl, hitems, rfl⟩⟩, ?_⟩
    rw [List.append_nil, List.reverse_reverse]

/-- Members with texts are inserted one after the other. -/
theorem chain_entries_iff {sofar final : SortedMap String String}
    {members : List (String × List Char)} :
    Chain (fun sofar (m : String × List Char) next =>
      ∃ a, WritesText m.2 a ∧ sofar.insert m.1 a = next)
        sofar members final ↔
      ∃ items : List (String × String × List Char), members = items.map (fun i => (i.1, i.2.2)) ∧
        (∀ i ∈ items, WritesText i.2.2 i.2.1) ∧
        final = (items.map fun i => (i.1, i.2.1)).foldl (fun m e => m.insert e.1 e.2) sofar := by
  constructor
  · intro h
    induction members generalizing sofar with
    | nil => exact ⟨[], rfl, nofun, h.symm⟩
    | cons m members ih =>
      obtain ⟨_, ⟨a, ha, rfl⟩, hrest⟩ := h
      obtain ⟨items, rfl, hitems, rfl⟩ := ih hrest
      exact ⟨(m.1, a, m.2) :: items, rfl, List.forall_mem_cons.mpr ⟨ha, hitems⟩, rfl⟩
  · rintro ⟨items, rfl, hitems, rfl⟩
    induction items generalizing sofar with
    | nil => rfl
    | cons i items ih =>
      obtain ⟨hi, hitems⟩ := List.forall_mem_cons.mp hitems
      exact ⟨sofar.insert i.1 i.2.1, ⟨i.2.1, hi, rfl⟩, ih hitems⟩

theorem exact_readTextMap : Exact readTextMap WritesTextMap := by
  have hmembers : MembersExact
      (fun (sofar : SortedMap String String) key => .ok (readText.map (sofar.insert key ·)))
      (fun sofar m next => ∃ a, WritesText m.2 a ∧ sofar.insert m.1 a = next) := by
    refine ⟨?_, nofun⟩
    rintro sofar key read hread
    cases hread
    exact exact_readText.map _
  have hmap : Exact readTextMap
      (ObjectForm (fun sofar m next => ∃ a, WritesText m.2 a ∧ sofar.insert m.1 a = next) ∅) :=
    exact_after rfl (by decide) .map ObjectForm.exists_cons hmembers.takes_readMembers_iff
  refine hmap.congr fun w m => ?_
  constructor
  · rintro ⟨_, hobject, hchain⟩
    obtain ⟨items, rfl, hitems, hm⟩ := chain_entries_iff.mp hchain
    exact ⟨items, hobject, hitems, SortedMap.eq_ofList_iff.mp hm⟩
  · rintro ⟨items, hobject, hitems, hm⟩
    exact ⟨_, hobject, chain_entries_iff.mpr ⟨items, rfl, hitems, SortedMap.eq_ofList_iff.mpr hm⟩⟩

/-! ## Structs -/

section Struct

variable {σ : Type} {fields : List (Field σ)} {form : String → σ → List Char → σ → Prop}

/-- A member of a struct: a field that has not come yet, or anything well-formed. -/
def MemberStep (fields : List (Field σ)) (form : String → σ → List Char → σ → Prop) (state : σ)
    (m : String × List Char) (next : σ) : Prop :=
  match fields.find? (·.name = m.1) with
  | some field => field.present state = false ∧ form field.name state m.2 next
  | none => Wellformed m.2 ∧ next = state

/-- An element of a struct in the form of a list: the next field. -/
def ElementStep (form : String → σ → List Char → σ → Prop) :
    σ × List (Field σ) → List Char → σ × List (Field σ) → Prop
  | (_, []), _, _ => False
  | (state, field :: rest), w, next => form field.name state w next.1 ∧ next.2 = rest

/-- A struct: an object of its members or a list of its fields, with every required field. -/
def StructForm (fields : List (Field σ)) (form : String → σ → List Char → σ → Prop) (state : σ)
    (w : List Char) (final : σ) : Prop :=
  (ObjectForm (MemberStep fields form) state w final ∨
    ∃ left, ListForm (ElementStep form) (state, fields) w (final, left)) ∧
    missing? final fields 0 = none

/-- The readers of the fields take exactly what the form says of them. -/
def FieldsExact (fields : List (Field σ)) (form : String → σ → List Char → σ → Prop) : Prop :=
  ∀ field ∈ fields, ∀ state, Exact (field.read state) (form field.name state)

theorem FieldsExact.members (h : FieldsExact fields form) :
    MembersExact (memberReader fields) (MemberStep fields form) := by
  refine ⟨?_, ?_⟩
  · intro state key read hread
    unfold memberReader at hread
    split at hread
    next field hfield =>
      split at hread
      next => cases hread
      next hpresent =>
        cases hread
        refine (h field (List.mem_of_find?_eq_some hfield) state).congr fun w next => ?_
        simp only [MemberStep, hfield, eq_false_of_ne_true hpresent, true_and]
    next hfield =>
      cases hread
      refine (exact_skipValue.map fun _ => state).congr fun w next => ?_
      simp only [MemberStep, hfield]
      exact ⟨fun ⟨_, hw, heq⟩ => ⟨hw, heq.symm⟩, fun ⟨hw, heq⟩ => ⟨(), hw, heq.symm⟩⟩
  · intro state key fault hread w next hstep
    unfold memberReader at hread
    split at hread
    next field hfield =>
      split at hread
      next hpresent =>
        simp only [MemberStep, hfield] at hstep
        rw [hpresent] at hstep
        cases hstep.1
      next => cases hread
    next => cases hread

theorem FieldsExact.elements (h : FieldsExact fields form) :
    ElementsExact (fun state : σ × List (Field σ) => ∀ field ∈ state.2, field ∈ fields)
      elementReader (ElementStep form) := by
  refine ⟨?_, ?_, ?_⟩
  · rintro ⟨state, _ | ⟨field, rest⟩⟩ read hinv hread
    · cases hread
    · cases hread
      refine ((h field (hinv field List.mem_cons_self) state).map _).congr fun w next => ?_
      simp only [ElementStep]
      constructor
      · rintro ⟨a, ha, rfl⟩
        exact ⟨ha, rfl⟩
      · rintro ⟨hnext, rfl⟩
        exact ⟨next.1, hnext, rfl⟩
  · rintro ⟨state, _ | ⟨field, rest⟩⟩ hread w next hstep
    · exact hstep
    · cases hread
  · rintro ⟨state, _ | ⟨field, rest⟩⟩ next w hinv hstep
    · exact hstep.elim
    · rw [hstep.2]
      exact fun f hf => hinv f (List.mem_cons_of_mem _ hf)

/-- After the blanks a struct is an object of its members or a list of its fields. -/
theorem takes_readStruct_iff {name : String} {state final : σ} {s rest : List Char} :
    Takes (readStruct name fields state) s final rest ↔
      ∃ l c r, Blanks l ∧ s = l ++ c :: r ∧ missing? final fields 0 = none ∧
        (c = '{' ∧ Takes (readMembers (memberReader fields) state) r final rest ∨
          c = '[' ∧ ∃ left,
            Takes (readElements elementReader (state, fields)) r (final, left) rest) := by
  constructor
  · rintro ⟨hlt, hread⟩
    unfold readStruct at hread
    split at hread
    next => cases hread
    next c r hskip =>
      obtain ⟨l, hl, hs⟩ := blanks_of_skipBlanks hskip
      refine ⟨l, c, r, hl, hs, ?_⟩
      dsimp only at hread
      split at hread
      next hc =>
        split at hread
        next => cases hread
        next mid hmembers =>
          split at hread
          next => cases hread
          next hmissing =>
            cases hread
            exact ⟨hmissing, Or.inl ⟨hc, _, hmembers⟩⟩
      split at hread
      next hc =>
        split at hread
        next => cases hread
        next left mid helements =>
          split at hread
          next => cases hread
          next hmissing =>
            cases hread
            exact ⟨hmissing, Or.inr ⟨hc, left, _, helements⟩⟩
      next => cases hread
  · rintro ⟨l, c, r, hl, rfl, hmissing, h⟩
    have hblank : isBlank c = false := by
      rcases h with ⟨rfl, -⟩ | ⟨rfl, -⟩ <;> rfl
    have hskip := skipBlanks_append_cons hl hblank r
    rcases h with ⟨rfl, hlt, hread⟩ | ⟨rfl, left, hlt, hread⟩
    all_goals
      refine ⟨Nat.lt_trans hlt (length_of_skipBlanks hskip), ?_⟩
      unfold readStruct
      split
      next hs => rw [hskip] at hs; cases hs
      next c' r' hs =>
        obtain ⟨rfl, rfl⟩ := List.cons.inj (hskip.symm.trans hs)
        simp only [Char.reduceEq, if_false, if_true, hread, hmissing]

theorem exact_readStruct (name : String) (h : FieldsExact fields form) (state : σ) :
    Exact (readStruct name fields state) (StructForm fields form state) where
  reads := by
    rintro w final ⟨hform, hmissing⟩ blanks rest hblanks -
    rcases hform with hobject | ⟨left, hlist⟩
    · obtain ⟨u, rfl⟩ := hobject.exists_cons
      exact takes_readStruct_iff.mpr ⟨blanks, _, u ++ rest, hblanks, rfl, hmissing,
        Or.inl ⟨rfl, h.members.takes_readMembers_iff.mpr ⟨u, hobject, rfl⟩⟩⟩
    · obtain ⟨u, rfl⟩ := hlist.exists_cons
      exact takes_readStruct_iff.mpr ⟨blanks, _, u ++ rest, hblanks, rfl, hmissing,
        Or.inr ⟨rfl, left,
          (h.elements.takes_readElements_iff fun _ hf => hf).mpr ⟨u, hlist, rfl⟩⟩⟩
  takes := by
    intro s rest final htakes
    obtain ⟨l, c, r, hl, rfl, hmissing, ⟨rfl, hmembers⟩ | ⟨rfl, left, helements⟩⟩ :=
      takes_readStruct_iff.mp htakes
    · obtain ⟨u, hobject, rfl⟩ := h.members.takes_readMembers_iff.mp hmembers
      exact ⟨l, _, hl, rfl, Or.inl hobject, hmissing⟩
    · obtain ⟨u, hlist, rfl⟩ :=
        (h.elements.takes_readElements_iff fun _ hf => hf).mp helements
      exact ⟨l, _, hl, rfl, Or.inr ⟨left, hlist⟩, hmissing⟩
  begins := by
    rintro w final ⟨hobject | ⟨left, hlist⟩, -⟩
    · obtain ⟨u, rfl⟩ := hobject.exists_cons
      exact ⟨_, u, rfl, rfl, by decide⟩
    · obtain ⟨u, rfl⟩ := hlist.exists_cons
      exact ⟨_, u, rfl, rfl, by decide⟩

end Struct

/-! ## Whole texts -/

theorem Blanks.apart {l : List Char} (h : Blanks l) : Apart l :=
  fun c hc => Or.inl (h c (List.mem_of_mem_head? hc))

/-- A text is read whole if it has the form, with any blanks around it. -/
theorem Exact.readAll_iff {α : Type} {read : Reader α} {form : List Char → α → Prop}
    (h : Exact read form) {text : String} {value : α} :
    readAll read text = .ok value ↔
      ∃ l w m, Blanks l ∧ Blanks m ∧ text.toList = l ++ (w ++ m) ∧ form w value := by
  constructor
  · intro hread
    unfold readAll at hread
    split at hread
    next => cases hread
    next v rest htakes =>
      split at hread
      next hskip =>
        cases hread
        obtain ⟨l, w, hl, hs, hw⟩ := h.takes ⟨rest.2, htakes⟩
        obtain ⟨m, hm, hrest⟩ := blanks_of_skipBlanks hskip
        rw [List.append_nil] at hrest
        exact ⟨l, w, m, hl, hm, hrest ▸ hs, hw⟩
      next => cases hread
  · rintro ⟨l, w, m, hl, hm, htext, hw⟩
    have htakes := h.reads hw l m hl hm.apart
    rw [← htext] at htakes
    obtain ⟨hlt, hread⟩ := htakes
    have hskip : skipBlanks m = [] := by
      rw [← List.append_nil m, skipBlanks_append hm]
      rfl
    simp only [readAll, hread, hskip]

end HostRegistry.Json
