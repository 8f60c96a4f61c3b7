import HostRegistry.Proofs.Json.Strings

/-!
Readers that take exactly what a form allows.

`Exact` has both directions: a reader understands every text of the form, and what it takes has the
form. For lists and objects the form is a block whose items take a state from the first to the last;
`takes_readElements_iff` and `takes_readMembers_iff` turn the loops of the readers into such blocks,
for any readers of the items that are exact themselves.
-/

set_option autoImplicit false

namespace HostRegistry.Json

/-- A text that begins a value: with neither a blank nor the end of a list. -/
def Begins (w : List Char) : Prop := ∃ c u, w = c :: u ∧ isBlank c = false ∧ c ≠ ']'

/-- A reader takes the texts of a form, after any blanks, and no others. -/
structure Exact {α : Type} (read : Reader α) (form : List Char → α → Prop) : Prop where
  reads : ∀ {w : List Char} {value : α}, form w value → Reads read w value
  takes : ∀ {s rest : List Char} {value : α}, Takes read s value rest →
    ∃ l w, Blanks l ∧ s = l ++ (w ++ rest) ∧ form w value
  begins : ∀ {w : List Char} {value : α}, form w value → Begins w

/-! ## Blanks -/

theorem Blanks.append {l m : List Char} (hl : Blanks l) (hm : Blanks m) : Blanks (l ++ m) :=
  fun c hc => (List.mem_append.mp hc).elim (hl c) (hm c)

theorem exists_blanks (s : List Char) : ∃ l, Blanks l ∧ s = l ++ skipBlanks s :=
  ⟨s.takeWhile isBlank, List.all_eq_true.mp List.all_takeWhile,
    List.takeWhile_append_dropWhile.symm⟩

theorem blanks_of_skipBlanks {s r : List Char} (h : skipBlanks s = r) :
    ∃ l, Blanks l ∧ s = l ++ r := h ▸ exists_blanks s

theorem takes_readColon_iff {s rest : List Char} {x : Unit} :
    Takes readColon s x rest ↔ ∃ l, Blanks l ∧ s = l ++ ':' :: rest := by
  constructor
  · rintro ⟨hlt, hread⟩
    rw [readColon] at hread
    split at hread
    next => cases hread
    next c r hskip =>
      split at hread
      next hc =>
        subst hc
        cases hread
        exact blanks_of_skipBlanks hskip
      next => cases hread
  · rintro ⟨l, hl, rfl⟩
    have hskip : skipBlanks (l ++ ':' :: rest) = ':' :: rest := by
      rw [skipBlanks_append hl]
      exact skipBlanks_cons rfl rest
    refine ⟨length_of_skipBlanks hskip, ?_⟩
    rw [readColon]
    split
    next hs => rw [hskip] at hs; cases hs
    next c r hs =>
      obtain ⟨rfl, rfl⟩ := List.cons.inj (hskip.symm.trans hs)
      rfl

/-! ## Changed readers -/

theorem takes_map_iff {α β : Type} {read : Reader α} {f : α → β} {s rest : List Char} {value : β} :
    Takes (read.map f) s value rest ↔ ∃ a, Takes read s a rest ∧ f a = value := by
  constructor
  · rintro ⟨hlt, hread⟩
    unfold Reader.map at hread
    split at hread
    next => cases hread
    next a mid ha =>
      cases hread
      exact ⟨a, ⟨_, ha⟩, rfl⟩
  · rintro ⟨a, h, rfl⟩
    exact h.map f

theorem Exact.map {α β : Type} {read : Reader α} {form : List Char → α → Prop}
    (h : Exact read form) (f : α → β) :
    Exact (read.map f) fun w value => ∃ a, form w a ∧ f a = value where
  reads := by
    rintro w _ ⟨a, ha, rfl⟩
    exact (h.reads ha).map f
  takes := by
    intro s rest value htakes
    obtain ⟨a, ha, rfl⟩ := takes_map_iff.mp htakes
    obtain ⟨l, w, hl, hs, hw⟩ := h.takes ha
    exact ⟨l, w, hl, hs, a, hw, rfl⟩
  begins := fun ⟨_, ha, _⟩ => h.begins ha

/-- A reader of values that begin with a certain character is exact if its body is. -/
theorem exact_after {α : Type} {first : Char} (hblank : isBlank first = false)
    (hclose : first ≠ ']')
    (expected : Shape) {body : Reader α} {form : List Char → α → Prop}
    (hform : ∀ {w value}, form w value → ∃ u, w = first :: u)
    (hbody : ∀ {s rest value}, Takes body s value rest ↔
      ∃ u, form (first :: u) value ∧ s = u ++ rest) :
    Exact (readAfter first expected body) form where
  reads := by
    intro w value hw
    obtain ⟨u, rfl⟩ := hform hw
    exact reads_after hblank expected fun rest => ⟨u ++ rest, rfl, hbody.mpr ⟨u, hw, rfl⟩⟩
  takes := by
    rintro s rest value ⟨hlt, hread⟩
    unfold readAfter at hread
    split at hread
    next => cases hread
    next c r hskip =>
      split at hread
      next hc =>
        subst hc
        split at hread
        next => cases hread
        next v mid hmid =>
          cases hread
          obtain ⟨u, hu, hr⟩ := hbody.mp ⟨mid.2, hmid⟩
          obtain ⟨l, hl, hs⟩ := blanks_of_skipBlanks hskip
          exact ⟨l, _, hl, hs.trans (congrArg (l ++ c :: ·) hr), hu⟩
      next => cases hread
  begins := by
    intro w value hw
    obtain ⟨u, rfl⟩ := hform hw
    exact ⟨first, u, rfl, hblank, hclose⟩

/-! ## Blocks -/

theorem apart_further {close : Char} (hclose : close = ']' ∨ close = '}') {items : List (List Char)}
    {t : List Char} (ht : Further close items t) (rest : List Char) : Apart (t ++ rest) := by
  have blank_or : ∀ {l : List Char} {c : Char} {u : List Char}, Blanks l →
      (c = ',' ∨ c = ']' ∨ c = '}') → Apart (l ++ c :: u) := by
    intro l c u hl hc
    cases l with
    | nil =>
      intro d hd
      cases hd
      exact Or.inr hc
    | cons b l =>
      intro d hd
      cases hd
      exact Or.inl (hl b List.mem_cons_self)
  cases items with
  | nil =>
    obtain ⟨l, hl, rfl⟩ := ht
    rw [List.append_assoc]
    exact blank_or hl (Or.inr hclose)
  | cons item items =>
    obtain ⟨l, m, u, hl, -, -, rfl⟩ := ht
    rw [List.append_assoc]
    exact blank_or hl (Or.inl rfl)

theorem skipBlanks_append_cons {l : List Char} {c : Char} (hl : Blanks l) (hc : isBlank c = false)
    (s : List Char) : skipBlanks (l ++ c :: s) = c :: s := by
  rw [skipBlanks_append hl]
  exact skipBlanks_cons hc s

theorem Block.exists_cons {first last : Char} {items : List (List Char)} {w : List Char}
    (h : Block first last items w) : ∃ u, w = first :: u := by
  cases items with
  | nil =>
    obtain ⟨l, -, rfl⟩ := h
    exact ⟨_, rfl⟩
  | cons item items =>
    obtain ⟨l, t, -, -, rfl⟩ := h
    exact ⟨_, rfl⟩

section Elements

variable {σ : Type} {element : σ → Option (Reader σ)} {step : σ → List Char → σ → Prop}
  {Inv : σ → Prop}

/-- The readers of elements are exact in the states that can be met: the form of the next element
depends on the state, and there is none where the list has to end. -/
structure ElementsExact (Inv : σ → Prop) (element : σ → Option (Reader σ))
    (step : σ → List Char → σ → Prop) : Prop where
  some : ∀ {state : σ} {read : Reader σ}, Inv state → element state = .some read →
    Exact read (step state)
  none : ∀ {state : σ}, element state = .none → ∀ w next, ¬ step state w next
  next : ∀ {state next : σ} {w : List Char}, Inv state → step state w next → Inv next

/-- A list whose elements take a state to another one. -/
def ListForm (step : σ → List Char → σ → Prop) (state : σ) (w : List Char) (final : σ) : Prop :=
  ∃ items, Block '[' ']' items w ∧ Chain step state items final

/-- Further elements are read to the end of the list. -/
theorem ElementsExact.readElementsFrom_further (hexact : ElementsExact Inv element step)
    {items : List (List Char)} {start t rest : List Char} {state final : σ}
    (hinv : Inv state) (ht : Further ']' items t) (hchain : Chain step state items final)
    (h : (t ++ rest).length ≤ start.length) :
    ∃ hr, readElementsFrom element start false state (t ++ rest) h = .ok (final, ⟨rest, hr⟩) := by
  induction items generalizing state t with
  | nil =>
    obtain rfl := hchain
    obtain ⟨l, hl, rfl⟩ := ht
    have hskip : skipBlanks (l ++ [']'] ++ rest) = ']' :: rest := by
      rw [List.append_assoc]
      exact skipBlanks_append_cons hl rfl rest
    exact readElementsFrom_close hskip h
  | cons item items ih =>
    obtain ⟨next, hstep, hrest⟩ := hchain
    obtain ⟨l, m, u, hl, hm, hu, rfl⟩ := ht
    cases hread : element state with
    | none => exact absurd hstep (hexact.none hread item next)
    | some read =>
      have hitem := hexact.some hinv hread
      obtain ⟨c, w, rfl, hblank, hclose⟩ := hitem.begins hstep
      have hskip : skipBlanks (l ++ ',' :: (m ++ (c :: w ++ u)) ++ rest) =
          ',' :: (m ++ (c :: w ++ (u ++ rest))) := by
        simp only [List.append_assoc, List.cons_append]
        exact skipBlanks_append_cons hl rfl _
      have hskip' : skipBlanks (m ++ (c :: w ++ (u ++ rest))) = c :: (w ++ (u ++ rest)) :=
        skipBlanks_append_cons hm hblank _
      have htakes := hitem.reads hstep m (u ++ rest) hm (apart_further (Or.inl rfl) hu rest)
      obtain ⟨hle, hnext⟩ := readElementsFrom_next hskip hskip' hclose hread htakes h
      obtain ⟨hr, htail⟩ := ih (hexact.next hinv hstep) hu hrest hle
      exact ⟨hr, hnext.trans htail⟩

/-- What is read to the end of a list is a block of elements, or what follows its first one. -/
theorem ElementsExact.block_of_readElementsFrom (hexact : ElementsExact Inv element step)
    {start s rest : List Char} {first : Bool} {state final : σ} (hinv : Inv state)
    {h : s.length ≤ start.length} {hr : rest.length < start.length}
    (hread : readElementsFrom element start first state s h = .ok (final, ⟨rest, hr⟩)) :
    ∃ items u, s = u ++ rest ∧ Chain step state items final ∧
      if first then Block '[' ']' items ('[' :: u) else Further ']' items u := by
  fun_induction readElementsFrom element start first state s h with
  | case1 | case3 | case4 | case6 | case7 | case8 | case10 => cases hread
  | case2 first state s _ r hskip =>
    cases hread
    obtain ⟨l, hl, rfl⟩ := blanks_of_skipBlanks hskip
    refine ⟨[], l ++ [']'], by rw [List.append_assoc]; rfl, rfl, ?_⟩
    cases first with
    | true => exact ⟨l, hl, rfl⟩
    | false => exact ⟨l, hl, rfl⟩
  | case5 state s _ c r hskip _ _ read helement next mid hmid ih =>
    obtain ⟨l, hl, hs⟩ := blanks_of_skipBlanks hskip
    obtain ⟨m, w, hm, hr, hw⟩ := (hexact.some hinv helement).takes ⟨mid.2, hmid⟩
    obtain ⟨items, u, hu, hchain, hfurther⟩ := ih (hexact.next hinv hw) hread
    refine ⟨w :: items, l ++ (m ++ (w ++ u)), ?_, ⟨next, hw, hchain⟩, ?_⟩
    · rw [hs, hr, hu]
      simp only [List.append_assoc]
    · exact ⟨l ++ m, u, hl.append hm, hfurther, by simp only [List.append_assoc]⟩
  | case9 first state s _ r read helement hfirst next mid hmid _ _ hskip _ _ ih =>
    obtain ⟨l, hl, hs⟩ := blanks_of_skipBlanks hskip
    obtain ⟨m, w, hm, hr, hw⟩ := (hexact.some hinv helement).takes ⟨mid.2, hmid⟩
    obtain ⟨items, u, hu, hchain, hfurther⟩ := ih (hexact.next hinv hw) hread
    refine ⟨w :: items, l ++ ',' :: (m ++ (w ++ u)), ?_, ⟨next, hw, hchain⟩, ?_⟩
    · rw [hs, hr, hu]
      simp only [List.append_assoc, List.cons_append]
    · rw [if_neg hfirst]
      exact ⟨l, m, u, hl, hm, hfurther, rfl⟩

/-- Lists are read to their closing bracket. -/
theorem ElementsExact.takes_readElements_iff (hexact : ElementsExact Inv element step)
    {s rest : List Char} {state final : σ} (hinv : Inv state) :
    Takes (readElements element state) s final rest ↔
      ∃ u, ListForm step state ('[' :: u) final ∧ s = u ++ rest := by
  constructor
  · rintro ⟨hlt, hread⟩
    obtain ⟨items, u, hs, hchain, hblock⟩ := hexact.block_of_readElementsFrom hinv hread
    exact ⟨u, ⟨items, hblock, hchain⟩, hs⟩
  · rintro ⟨u, ⟨items, hblock, hchain⟩, rfl⟩
    cases items with
    | nil =>
      obtain rfl := hchain
      obtain ⟨l, hl, heq⟩ := hblock
      obtain rfl : u = l ++ [']'] := (List.cons.inj heq).2
      have hskip : skipBlanks (l ++ [']'] ++ rest) = ']' :: rest := by
        rw [List.append_assoc]
        exact skipBlanks_append_cons hl rfl rest
      exact readElementsFrom_close hskip (Nat.le_refl _)
    | cons item items =>
      obtain ⟨next, hstep, hrest⟩ := hchain
      obtain ⟨l, t, hl, ht, heq⟩ := hblock
      obtain rfl : u = l ++ (item ++ t) := (List.cons.inj heq).2
      cases hread : element state with
      | none => exact absurd hstep (hexact.none hread item next)
      | some read =>
        have hitem := hexact.some hinv hread
        obtain ⟨c, w, rfl, hblank, hclose⟩ := hitem.begins hstep
        have hskip : skipBlanks (l ++ (c :: w ++ t) ++ rest) = c :: (w ++ (t ++ rest)) := by
          simp only [List.append_assoc, List.cons_append]
          exact skipBlanks_append_cons hl hblank _
        have htakes := hitem.reads hstep [] (t ++ rest) blanks_nil
          (apart_further (Or.inl rfl) ht rest)
        obtain ⟨hle, hfirst⟩ := readElementsFrom_first hskip hclose hread htakes (Nat.le_refl _)
        obtain ⟨hr, htail⟩ := hexact.readElementsFrom_further (hexact.next hinv hstep) ht hrest hle
        exact ⟨hr, hfirst.trans htail⟩

theorem ListForm.exists_cons {step : σ → List Char → σ → Prop} {state final : σ} {w : List Char}
    (h : ListForm step state w final) : ∃ u, w = '[' :: u := by
  obtain ⟨items, hblock, -⟩ := h
  exact hblock.exists_cons

end Elements

section Members

variable {σ : Type} {member : σ → String → Except Fault (Reader σ)}
  {step : σ → String × List Char → σ → Prop}

/-- The readers of members are exact: the form of a value depends on the state and on its key, and
there is none where the key is refused. -/
structure MembersExact (member : σ → String → Except Fault (Reader σ))
    (step : σ → String × List Char → σ → Prop) : Prop where
  ok : ∀ {state : σ} {key : String} {read : Reader σ}, member state key = .ok read →
    Exact read fun w next => step state (key, w) next
  error : ∀ {state : σ} {key : String} {fault : Fault}, member state key = .error fault →
    ∀ w next, ¬ step state (key, w) next

/-- An object whose members take a state to another one. -/
def ObjectForm (step : σ → String × List Char → σ → Prop) (state : σ) (w : List Char) (final : σ) :
    Prop :=
  ∃ members, WritesObject w members ∧ Chain step state members final

/-- A written member is read up to what stands apart from it. -/
theorem MembersExact.takes_readMember (hexact : MembersExact member step) {state next : σ}
    {name : String} {p : Parts} {rest : List Char} (hkey : WritesText p.key name)
    (hcolon : Colon p.colon) (hstep : step state (name, p.value) next) (hrest : Apart rest) :
    ∃ u, p.text = '"' :: u ∧ Takes (readMember member state) (u ++ rest) next rest := by
  obtain ⟨key, colon, value⟩ := p
  obtain ⟨u, hu, rfl⟩ := hkey
  obtain ⟨l, m, hl, hm, rfl⟩ := hcolon
  refine ⟨u ++ '"' :: (l ++ ':' :: (m ++ value)), ?_, ?_⟩
  · simp only [Parts.text, List.cons_append, List.append_assoc, List.nil_append]
  cases hread : member state name with
  | error fault => exact absurd hstep (hexact.error hread value next)
  | ok read =>
    obtain ⟨hltColon, hcolon⟩ :
        Takes readColon (l ++ ':' :: (m ++ (value ++ rest))) () (m ++ (value ++ rest)) :=
      takes_readColon_iff.mpr ⟨l, hl, rfl⟩
    obtain ⟨hltKey, hstring⟩ := takes_readString_iff.mpr ⟨u, hu, rfl⟩
    obtain ⟨hltValue, hvalue⟩ := (hexact.ok hread).reads hstep m rest hm hrest
    have heq : u ++ '"' :: (l ++ ':' :: (m ++ value)) ++ rest =
        u ++ '"' :: (l ++ ':' :: (m ++ (value ++ rest))) := by
      simp only [List.append_assoc, List.cons_append]
    rw [heq]
    refine ⟨Nat.lt_trans hltValue (Nat.lt_trans hltColon hltKey), ?_⟩
    simp only [readMember, hstring, hread, hcolon, hvalue]

/-- What is read as a member is one. -/
theorem MembersExact.parts_of_readMember (hexact : MembersExact member step) {state next : σ}
    {s rest : List Char} (h : Takes (readMember member state) s next rest) :
    ∃ name p, WritesText p.key name ∧ Colon p.colon ∧ step state (name, p.value) next ∧
      '"' :: s = Parts.text p ++ rest := by
  obtain ⟨hlt, hread⟩ := h
  unfold readMember at hread
  split at hread
  next => cases hread
  next name afterKey hname =>
    split at hread
    next => cases hread
    next read hmember =>
      split at hread
      next => cases hread
      next x afterColon hcolon =>
        split at hread
        next => cases hread
        next final mid hvalue =>
          cases hread
          obtain ⟨u, hu, hs⟩ := takes_readString_iff.mp ⟨afterKey.2, hname⟩
          obtain ⟨l, hl, hkey⟩ := takes_readColon_iff.mp ⟨afterColon.2, hcolon⟩
          obtain ⟨m, w, hm, hafter, hstep⟩ := (hexact.ok hmember).takes ⟨mid.2, hvalue⟩
          refine ⟨name, ⟨'"' :: (u ++ ['"']), l ++ ':' :: m, w⟩, ⟨u, hu, rfl⟩, ⟨l, m, hl, hm, rfl⟩,
            hstep, ?_⟩
          have heq : s = u ++ '"' :: (l ++ ':' :: (m ++ (w ++ mid.1))) := by
            rw [← hafter, ← hkey]
            exact hs
          simp only [heq, Parts.text, List.cons_append, List.append_assoc, List.nil_append]

/-- Further members are read to the end of the object. -/
theorem MembersExact.readMembersFrom_further (hexact : MembersExact member step)
    {parts : List (String × Parts)} {start t rest : List Char} {state final : σ}
    (ht : Further '}' (parts.map (·.2.text)) t)
    (hparts : ∀ p ∈ parts, WritesText p.2.key p.1 ∧ Colon p.2.colon)
    (hchain : Chain step state (parts.map fun p => (p.1, p.2.value)) final)
    (h : (t ++ rest).length ≤ start.length) :
    ∃ hr, readMembersFrom member start false state (t ++ rest) h = .ok (final, ⟨rest, hr⟩) := by
  induction parts generalizing state t with
  | nil =>
    obtain rfl := hchain
    obtain ⟨l, hl, rfl⟩ := ht
    have hskip : skipBlanks (l ++ ['}'] ++ rest) = '}' :: rest := by
      rw [List.append_assoc]
      exact skipBlanks_append_cons hl rfl rest
    exact readMembersFrom_close hskip h
  | cons p parts ih =>
    obtain ⟨⟨hkey, hcolon⟩, hparts⟩ := List.forall_mem_cons.mp hparts
    obtain ⟨next, hstep, hrest⟩ := hchain
    obtain ⟨l, m, u, hl, hm, hu, rfl⟩ := ht
    obtain ⟨w, hw, htakes⟩ := hexact.takes_readMember hkey hcolon hstep
      (apart_further (Or.inr rfl) hu rest)
    have hskip : skipBlanks (l ++ ',' :: (m ++ (p.2.text ++ u)) ++ rest) =
        ',' :: (m ++ '"' :: (w ++ (u ++ rest))) := by
      rw [hw]
      simp only [List.append_assoc, List.cons_append]
      exact skipBlanks_append_cons hl rfl _
    obtain ⟨hle, hnext⟩ := readMembersFrom_next hskip (skipBlanks_append_cons hm rfl _) htakes h
    obtain ⟨hr, htail⟩ := ih hu hparts hrest hle
    exact ⟨hr, hnext.trans htail⟩

/-- What is read to the end of an object is a block of members, or what follows its first one. -/
theorem MembersExact.block_of_readMembersFrom (hexact : MembersExact member step)
    {start s rest : List Char} {first : Bool} {state final : σ} {h : s.length ≤ start.length}
    {hr : rest.length < start.length}
    (hread : readMembersFrom member start first state s h = .ok (final, ⟨rest, hr⟩)) :
    ∃ (parts : List (String × Parts)) (u : List Char), s = u ++ rest ∧
      (∀ p ∈ parts, WritesText p.2.key p.1 ∧ Colon p.2.colon) ∧
      Chain step state (parts.map fun p => (p.1, p.2.value)) final ∧
      if first then Block '{' '}' (parts.map (·.2.text)) ('{' :: u)
      else Further '}' (parts.map (·.2.text)) u := by
  fun_induction readMembersFrom member start first state s h with
  | case1 | case3 | case5 | case6 | case7 | case9 | case10 | case11 => cases hread
  | case2 first state s _ r hskip =>
    cases hread
    obtain ⟨l, hl, rfl⟩ := blanks_of_skipBlanks hskip
    refine ⟨[], l ++ ['}'], by rw [List.append_assoc]; rfl, nofun, rfl, ?_⟩
    cases first with
    | true => exact ⟨l, hl, rfl⟩
    | false => exact ⟨l, hl, rfl⟩
  | case4 state s _ r next mid hmid hskip _ _ ih =>
    obtain ⟨parts, u, hu, hparts, hchain, hfurther⟩ := ih hread
    obtain ⟨l, hl, hs⟩ := blanks_of_skipBlanks hskip
    obtain ⟨name, p, hkey, hcolon, hstep, hr⟩ := hexact.parts_of_readMember ⟨mid.2, hmid⟩
    refine ⟨(name, p) :: parts, l ++ (p.text ++ u), ?_,
      List.forall_mem_cons.mpr ⟨⟨hkey, hcolon⟩, hparts⟩, ⟨next, hstep, hchain⟩, ?_⟩
    · rw [hs, hr, hu]
      simp only [List.append_assoc]
    · exact ⟨l, u, hl, hfurther, rfl⟩
  | case8 first state s _ r hfirst r' next mid hmid hskip _ _ hskip' _ ih =>
    obtain ⟨parts, u, hu, hparts, hchain, hfurther⟩ := ih hread
    obtain ⟨l, hl, hs⟩ := blanks_of_skipBlanks hskip
    obtain ⟨m, hm, hs'⟩ := blanks_of_skipBlanks hskip'
    obtain ⟨name, p, hkey, hcolon, hstep, hr⟩ := hexact.parts_of_readMember ⟨mid.2, hmid⟩
    refine ⟨(name, p) :: parts, l ++ ',' :: (m ++ (p.text ++ u)), ?_,
      List.forall_mem_cons.mpr ⟨⟨hkey, hcolon⟩, hparts⟩, ⟨next, hstep, hchain⟩, ?_⟩
    · rw [hs, hs', hr, hu]
      simp only [List.append_assoc, List.cons_append]
    · rw [if_neg hfirst]
      exact ⟨l, m, u, hl, hm, hfurther, rfl⟩

/-- Objects are read to their closing brace. -/
theorem MembersExact.takes_readMembers_iff (hexact : MembersExact member step)
    {s rest : List Char} {state final : σ} :
    Takes (readMembers member state) s final rest ↔
      ∃ u, ObjectForm step state ('{' :: u) final ∧ s = u ++ rest := by
  constructor
  · rintro ⟨hlt, hread⟩
    obtain ⟨parts, u, hs, hparts, hchain, hblock⟩ := hexact.block_of_readMembersFrom hread
    exact ⟨u, ⟨_, ⟨parts, hblock, hparts, rfl⟩, hchain⟩, hs⟩
  · rintro ⟨u, ⟨_, ⟨parts, hblock, hparts, rfl⟩, hchain⟩, rfl⟩
    cases parts with
    | nil =>
      obtain rfl := hchain
      obtain ⟨l, hl, heq⟩ := hblock
      obtain rfl : u = l ++ ['}'] := (List.cons.inj heq).2
      have hskip : skipBlanks (l ++ ['}'] ++ rest) = '}' :: rest := by
        rw [List.append_assoc]
        exact skipBlanks_append_cons hl rfl rest
      exact readMembersFrom_close hskip (Nat.le_refl _)
    | cons p parts =>
      obtain ⟨⟨hkey, hcolon⟩, hparts⟩ := List.forall_mem_cons.mp hparts
      obtain ⟨next, hstep, hrest⟩ := hchain
      obtain ⟨l, t, hl, ht, heq⟩ := hblock
      obtain rfl : u = l ++ (p.2.text ++ t) := (List.cons.inj heq).2
      obtain ⟨w, hw, htakes⟩ := hexact.takes_readMember hkey hcolon hstep
        (apart_further (Or.inr rfl) ht rest)
      have hskip : skipBlanks (l ++ (p.2.text ++ t) ++ rest) = '"' :: (w ++ (t ++ rest)) := by
        rw [hw]
        simp only [List.append_assoc, List.cons_append]
        exact skipBlanks_append_cons hl rfl _
      obtain ⟨hle, hfirst⟩ := readMembersFrom_first hskip htakes (Nat.le_refl _)
      obtain ⟨hr, htail⟩ := hexact.readMembersFrom_further ht hparts hrest hle
      exact ⟨hr, hfirst.trans htail⟩

theorem ObjectForm.exists_cons {step : σ → String × List Char → σ → Prop} {state final : σ}
    {w : List Char} (h : ObjectForm step state w final) : ∃ u, w = '{' :: u := by
  obtain ⟨_, ⟨parts, hblock, -⟩, -⟩ := h
  exact hblock.exists_cons

end Members

end HostRegistry.Json
