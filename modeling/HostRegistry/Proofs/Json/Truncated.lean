import HostRegistry.Proofs.Json.Written

/-!
What the readers make of written JSON that breaks off.

`Starves` says that a reader meets the end of the text wherever a written value is cut, be it in an
escape, before a colon or after a comma. It is shown along the printer, as `Reads` is: the items in
front of the cut are understood, so the cut is met where it is.
-/

set_option autoImplicit false

namespace HostRegistry.Json

/-- A text that breaks off within another one. -/
def Cut (p w : List Char) : Prop := p <+: w ∧ p ≠ w

/-- The answer is that the text ends too early. -/
def Early {α : Type} (answer : Except Fault α) : Prop :=
  ∃ fault, answer = .error fault ∧ fault.category = .early

/-- A reader meets the end wherever a written value breaks off, whatever blanks stand before it. -/
def Starves {α : Type} (read : Reader α) (written : List Char) : Prop :=
  ∀ blanks p, Blanks blanks → Cut p written → Early (read (blanks ++ p))

/-! ## Cuts -/

theorem not_cut_nil (p : List Char) : ¬ Cut p [] := fun ⟨hp, hne⟩ => hne (List.prefix_nil.mp hp)

theorem cut_cons {c : Char} {p w : List Char} (h : Cut p (c :: w)) :
    p = [] ∨ ∃ q, p = c :: q ∧ Cut q w := by
  obtain ⟨hp, hne⟩ := h
  rcases List.prefix_cons_iff.mp hp with rfl | ⟨q, rfl, hq⟩
  · exact Or.inl rfl
  · exact Or.inr ⟨q, rfl, hq, fun heq => hne (heq ▸ rfl)⟩

theorem cut_cons_cons {c : Char} {p w : List Char} : Cut (c :: p) (c :: w) ↔ Cut p w :=
  and_congr (List.prefix_cons_inj c) (not_congr (List.cons_inj_right c))

theorem cut_append {p a b : List Char} (h : Cut p (a ++ b)) :
    Cut p a ∨ ∃ q, p = a ++ q ∧ Cut q b := by
  induction a generalizing p with
  | nil => exact Or.inr ⟨p, rfl, h⟩
  | cons c a ih =>
    rcases cut_cons h with rfl | ⟨q, rfl, hq⟩
    · exact Or.inl ⟨List.nil_prefix, (List.cons_ne_nil _ _).symm⟩
    · rcases ih hq with ⟨hp, hne⟩ | ⟨q', rfl, hq'⟩
      · exact Or.inl ⟨List.cons_prefix_cons.mpr ⟨rfl, hp⟩, fun heq => hne (List.cons.inj heq).2⟩
      · exact Or.inr ⟨q', rfl, hq'⟩

theorem cut_nil {w : List Char} (h : w ≠ []) : Cut [] w := ⟨List.nil_prefix, h.symm⟩

theorem Cut.blanks {p w : List Char} (h : Cut p w) (hw : Blanks w) : Blanks p :=
  fun c hc => hw c (h.1.subset hc)

theorem Cut.apart {p w : List Char} (h : Cut p w) (hw : Apart w) : Apart p := by
  obtain ⟨⟨t, rfl⟩, -⟩ := h
  intro c hc
  cases p with
  | nil => cases hc
  | cons c' p => exact hw c hc

theorem skipBlanks_blanks {blanks : List Char} (h : Blanks blanks) : skipBlanks blanks = [] := by
  rw [← List.append_nil blanks, skipBlanks_append h]
  rfl

/-- What breaks off after blanks is blank, or has the first character after them. -/
theorem cut_blanks {blanks p w : List Char} {c : Char} (hblanks : Blanks blanks)
    (h : Cut p (blanks ++ c :: w)) :
    skipBlanks p = [] ∨ ∃ q, p = blanks ++ c :: q ∧ Cut q w := by
  rcases cut_append h with h | ⟨q, rfl, hq⟩
  · exact Or.inl (skipBlanks_blanks (h.blanks hblanks))
  · rcases cut_cons hq with rfl | ⟨t, rfl, ht⟩
    · rw [List.append_nil]
      exact Or.inl (skipBlanks_blanks hblanks)
    · exact Or.inr ⟨t, rfl, ht⟩

theorem Early.map {α β : Type} {read : Reader α} {s : List Char} (h : Early (read s)) (f : α → β) :
    Early (read.map f s) := by
  obtain ⟨fault, hread, hearly⟩ := h
  exact ⟨fault, by simp only [Reader.map, hread], hearly⟩

theorem Starves.map {α β : Type} {read : Reader α} {written : List Char} (h : Starves read written)
    (f : α → β) : Starves (read.map f) written :=
  fun blanks p hblanks hp => (h blanks p hblanks hp).map f

/-- What a reader understands is not empty. -/
theorem Reads.ne_nil {α : Type} {read : Reader α} {written : List Char} {value : α}
    (h : Reads read written value) : written ≠ [] := by
  rintro rfl
  obtain ⟨hlt, -⟩ := h [] [] blanks_nil apart_nil
  exact absurd hlt (Nat.not_lt_zero _)

/-- The blanks before a value may break off as well. -/
theorem Starves.append {α : Type} {read : Reader α} {blanks p written : List Char}
    (h : Starves read written) (hne : written ≠ []) (hblanks : Blanks blanks)
    (hp : Cut p (blanks ++ written)) : Early (read p) := by
  rcases cut_append hp with hp | ⟨q, rfl, hq⟩
  · have hread := h p [] (hp.blanks hblanks) (cut_nil hne)
    rwa [List.append_nil] at hread
  · exact h blanks q hblanks hq

/-! ## Texts -/

theorem utf8Size_hexDigit : ∀ n < 16, (hexDigit n).utf8Size = 1 := by decide

theorem early_readHex {a b c d : Char} {p : List Char} (h : Cut p [a, b, c, d])
    (ha : a.utf8Size = 1) (hb : b.utf8Size = 1) (hc : c.utf8Size = 1) : Early (readHex p) := by
  refine ⟨.endInString, ?_, rfl⟩
  rcases cut_cons h with rfl | ⟨_, rfl, h₁⟩
  · rfl
  rcases cut_cons h₁ with rfl | ⟨_, rfl, h₂⟩
  · simp only [readHex, byteLength, List.foldr, ha]
    rfl
  rcases cut_cons h₂ with rfl | ⟨_, rfl, h₃⟩
  · simp only [readHex, byteLength, List.foldr, ha, hb]
    rfl
  rcases cut_cons h₃ with rfl | ⟨_, rfl, h₄⟩
  · simp only [readHex, byteLength, List.foldr, ha, hb, hc]
    rfl
  · exact absurd h₄ (not_cut_nil _)

/-- A written character is cut before it, or within an escape. -/
theorem early_escape {c : Char} {p : List Char} (h : Cut p (escape c)) :
    p = [] ∨ ∃ q, p = '\\' :: q ∧ Early (readEscape q) := by
  have hend : Early (readEscape []) := ⟨.endInString, rfl, rfl⟩
  rcases escape_cases c with ⟨letter, -, -, hc⟩ | ⟨hlow, hc⟩ | ⟨-, -, -, hc⟩
  · rw [hc] at h
    refine (cut_cons h).imp_right ?_
    rintro ⟨q, rfl, hq⟩
    rcases cut_cons hq with rfl | ⟨_, _, hq⟩
    · exact ⟨[], rfl, hend⟩
    · exact absurd hq (not_cut_nil _)
  · rw [hc] at h
    refine (cut_cons h).imp_right ?_
    rintro ⟨q, rfl, hq⟩
    refine ⟨q, rfl, ?_⟩
    rcases cut_cons hq with rfl | ⟨digits, rfl, hdigits⟩
    · exact hend
    · obtain ⟨fault, hread, hearly⟩ :=
        early_readHex hdigits (by decide) (by decide) (utf8Size_hexDigit (c.toNat / 16) (by omega))
      exact ⟨fault, by simp only [readEscape, if_true, readCode, hread], hearly⟩
  · rw [hc] at h
    rcases cut_cons h with rfl | ⟨_, _, hq⟩
    · exact Or.inl rfl
    · exact absurd hq (not_cut_nil _)

/-- Written characters that break off before their closing quotation mark. -/
theorem early_readQuotedFrom (cs sofar : List Char) {start p : List Char}
    (hp : Cut p (cs.flatMap escape ++ ['"'])) (h : p.length ≤ start.length) :
    Early (readQuotedFrom readEscape (· :: ·) start sofar p h) := by
  have hend : ∀ sofar (h : [].length ≤ start.length),
      Early (readQuotedFrom readEscape (· :: ·) start sofar [] h) :=
    fun sofar h => ⟨.endInString, by rw [readQuotedFrom], rfl⟩
  induction cs generalizing sofar p with
  | nil =>
    rcases cut_cons hp with rfl | ⟨_, _, hq⟩
    · exact hend sofar h
    · exact absurd hq (not_cut_nil _)
  | cons c cs ih =>
    rw [List.flatMap_cons, List.append_assoc] at hp
    rcases cut_append hp with hp | ⟨q, rfl, hq⟩
    · rcases early_escape hp with rfl | ⟨q, rfl, fault, hread, hearly⟩
      · exact hend sofar h
      · refine ⟨fault, ?_, hearly⟩
        rw [readQuotedFrom]
        simp only [Char.reduceEq, if_false, if_true, hread]
    · have hle : q.length ≤ start.length := by
        rw [List.length_append] at h
        omega
      rw [readQuotedFrom_written rfl h hle]
      exact ih (c :: sofar) hq hle

theorem early_readString (text : String) {p : List Char}
    (hp : Cut p (text.toList.flatMap escape ++ ['"'])) : Early (readString p) := by
  obtain ⟨fault, hread, hearly⟩ := early_readQuotedFrom text.toList [] hp (Nat.le_refl _)
  exact ⟨fault, by simp only [readString, hread], hearly⟩

/-! ## Steps of the loops that meet the end -/

section Steps

variable {σ : Type} {start s r : List Char} {state : σ}

theorem early_readElementsFrom_end (element : σ → Option (Reader σ)) (first : Bool) (state : σ)
    (hskip : skipBlanks s = []) (h : s.length ≤ start.length) :
    Early (readElementsFrom element start first state s h) := by
  refine ⟨.endInList, ?_, rfl⟩
  rw [readElementsFrom]
  split
  next => rfl
  next hs => rw [hskip] at hs; cases hs

theorem early_readElementsFrom_first {element : σ → Option (Reader σ)} {read : Reader σ} {c : Char}
    (hskip : skipBlanks s = c :: r) (hclose : c ≠ ']') (hread : element state = some read)
    (hearly : Early (read (c :: r))) (h : s.length ≤ start.length) :
    Early (readElementsFrom element start true state s h) := by
  obtain ⟨fault, hfault, hearly⟩ := hearly
  refine ⟨fault, ?_, hearly⟩
  rw [readElementsFrom]
  split
  next hs => rw [hskip] at hs; cases hs
  next c' r' hs =>
    obtain ⟨rfl, rfl⟩ := List.cons.inj (hskip.symm.trans hs)
    simp only [hclose, if_false, hread, if_true, hfault]

theorem early_readElementsFrom_next {element : σ → Option (Reader σ)} {read : Reader σ}
    (hskip : skipBlanks s = ',' :: r) (hclose : (skipBlanks r).head? ≠ some ']')
    (hread : element state = some read) (hearly : Early (read r)) (h : s.length ≤ start.length) :
    Early (readElementsFrom element start false state s h) := by
  rw [readElementsFrom]
  split
  next hs => rw [hskip] at hs; cases hs
  next c' r' hs =>
    obtain ⟨rfl, rfl⟩ := List.cons.inj (hskip.symm.trans hs)
    rw [if_neg (by decide)]
    simp only [hread, Bool.false_eq_true, if_false, if_true]
    split
    next => exact ⟨.endInValue, rfl, rfl⟩
    next hs' =>
      rw [hs'] at hclose
      exact absurd rfl hclose
    next =>
      obtain ⟨fault, hfault, hearly⟩ := hearly
      exact ⟨fault, by simp only [hfault], hearly⟩

theorem early_readMembersFrom_end (member : σ → String → Except Fault (Reader σ)) (first : Bool)
    (state : σ) (hskip : skipBlanks s = []) (h : s.length ≤ start.length) :
    Early (readMembersFrom member start first state s h) := by
  refine ⟨.endInObject, ?_, rfl⟩
  rw [readMembersFrom]
  split
  next => rfl
  next hs => rw [hskip] at hs; cases hs

theorem early_readMembersFrom_first {member : σ → String → Except Fault (Reader σ)}
    (hskip : skipBlanks s = '"' :: r) (hearly : Early (readMember member state r))
    (h : s.length ≤ start.length) : Early (readMembersFrom member start true state s h) := by
  obtain ⟨fault, hfault, hearly⟩ := hearly
  refine ⟨fault, ?_, hearly⟩
  rw [readMembersFrom]
  split
  next hs => rw [hskip] at hs; cases hs
  next c' r' hs =>
    obtain ⟨rfl, rfl⟩ := List.cons.inj (hskip.symm.trans hs)
    rw [if_neg (by decide)]
    simp only [if_true, hfault]

theorem early_readMembersFrom_comma (member : σ → String → Except Fault (Reader σ)) (state : σ)
    (hskip : skipBlanks s = ',' :: r) (hskip' : skipBlanks r = []) (h : s.length ≤ start.length) :
    Early (readMembersFrom member start false state s h) := by
  refine ⟨.endInValue, ?_, rfl⟩
  rw [readMembersFrom]
  split
  next hs => rw [hskip] at hs; cases hs
  next c' r'' hs =>
    obtain ⟨rfl, rfl⟩ := List.cons.inj (hskip.symm.trans hs)
    rw [if_neg (by decide)]
    simp only [Bool.false_eq_true, if_false, if_true]
    split
    next => rfl
    next hs' => rw [hskip'] at hs'; cases hs'

theorem early_readMembersFrom_next {member : σ → String → Except Fault (Reader σ)} {r' : List Char}
    (hskip : skipBlanks s = ',' :: r) (hskip' : skipBlanks r = '"' :: r')
    (hearly : Early (readMember member state r')) (h : s.length ≤ start.length) :
    Early (readMembersFrom member start false state s h) := by
  obtain ⟨fault, hfault, hearly⟩ := hearly
  refine ⟨fault, ?_, hearly⟩
  rw [readMembersFrom]
  split
  next hs => rw [hskip] at hs; cases hs
  next c' r'' hs =>
    obtain ⟨rfl, rfl⟩ := List.cons.inj (hskip.symm.trans hs)
    rw [if_neg (by decide)]
    simp only [Bool.false_eq_true, if_false, if_true]
    split
    next hs' => rw [hskip'] at hs'; cases hs'
    next k rk hs' =>
      obtain ⟨rfl, rfl⟩ := List.cons.inj (hskip'.symm.trans hs')
      simp only [if_true, hfault]

end Steps

/-! ## Blocks -/

theorem apart_blockTail_alone (style : Style) (level : Nat) {close : Char}
    (hclose : close = ']' ∨ close = '}') (items : List (List Char)) :
    Apart (blockTail style level close items) := by
  have h := apart_blockTail style level hclose items []
  rwa [List.append_nil] at h

theorem blockTail_cons (style : Style) (level : Nat) (close : Char) (item : List Char)
    (items : List (List Char)) :
    blockTail style level close (item :: items) =
      ',' :: (style.break (level + 1) ++ item ++ blockTail style level close items) :=
  rfl

/-- An element that is understood whole, and no part of it. -/
def WholeElement {σ : Type} (element : σ → Option (Reader σ)) (state : σ) (item : List Char)
    (next : σ) : Prop :=
  (∃ c w, item = c :: w ∧ isBlank c = false ∧ c ≠ ']') ∧
    ∃ read, element state = some read ∧ Reads read item next ∧ Starves read item

/-- A member that is understood with its whole value, and with no part of it. -/
def WholeMember {σ : Type} (style : Style) (member : σ → String → Except Fault (Reader σ))
    (state : σ) (item : List Char) (next : σ) : Prop :=
  ∃ key value, item = Json.member style key value ∧
    ∃ read, member state key = .ok read ∧ Reads read value next ∧ Starves read value

/-- Further elements that break off before the end of the list. -/
theorem early_blockTail_elements {σ : Type} (style : Style) (level : Nat)
    {element : σ → Option (Reader σ)} {items : List (List Char)} {start p : List Char}
    {state final : σ} (hchain : Chain (WholeElement element) state items final)
    (hp : Cut p (blockTail style level ']' items)) (h : p.length ≤ start.length) :
    Early (readElementsFrom element start false state p h) := by
  induction items generalizing state p with
  | nil =>
    rcases cut_blanks (blanks_break style level) hp with hskip | ⟨_, -, hq⟩
    · exact early_readElementsFrom_end _ _ _ hskip h
    · exact absurd hq (not_cut_nil _)
  | cons item items ih =>
    obtain ⟨next, ⟨⟨c, w, rfl, hblank, hclose⟩, read, hread, hreads, hstarves⟩, hrest⟩ := hchain
    have hbreak := blanks_break style (level + 1)
    rw [blockTail_cons] at hp
    rcases cut_cons hp with rfl | ⟨q, rfl, hq⟩
    · exact early_readElementsFrom_end _ _ _ rfl h
    have hskip : skipBlanks (',' :: q) = ',' :: q := skipBlanks_cons rfl q
    rcases cut_append hq with hq | ⟨t, rfl, ht⟩
    · -- The cut is before the end of the next element.
      refine early_readElementsFrom_next hskip ?_ hread (hstarves.append hreads.ne_nil hbreak hq) h
      rcases cut_blanks hbreak hq with hskip' | ⟨t, rfl, -⟩
      · rw [hskip']
        exact nofun
      · rw [skipBlanks_break_append style (level + 1) hblank]
        exact fun heq => hclose (Option.some.inj heq)
    · have hapart := ht.apart (apart_blockTail_alone style level (Or.inl rfl) items)
      have htakes := hreads _ t hbreak hapart
      rw [← List.append_assoc] at htakes
      have hskip' : skipBlanks (style.break (level + 1) ++ (c :: w) ++ t) = c :: (w ++ t) := by
        rw [List.append_assoc]
        exact skipBlanks_break_append style (level + 1) hblank (w ++ t)
      obtain ⟨hle, hstep⟩ := readElementsFrom_next hskip hskip' hclose hread htakes h
      rw [hstep]
      exact ih hrest ht hle

/-- A list that breaks off, from the character after its opening bracket on. -/
theorem early_readElements {σ : Type} (style : Style) (level : Nat)
    {element : σ → Option (Reader σ)} {items : List (List Char)} {state final : σ}
    (hchain : Chain (WholeElement element) state items final) {w p : List Char}
    (hw : list style level items = '[' :: w) (hp : Cut p w) :
    Early (readElements element state p) := by
  cases items with
  | nil =>
    obtain rfl : w = [']'] := (List.cons.inj hw).2.symm
    rcases cut_cons hp with rfl | ⟨_, _, hq⟩
    · exact early_readElementsFrom_end _ _ _ rfl (Nat.le_refl _)
    · exact absurd hq (not_cut_nil _)
  | cons item items =>
    obtain ⟨next, ⟨⟨c, u, rfl, hblank, hclose⟩, read, hread, hreads, hstarves⟩, hrest⟩ := hchain
    have hbreak := blanks_break style (level + 1)
    obtain rfl : w = style.break (level + 1) ++ (c :: u) ++ blockTail style level ']' items :=
      (List.cons.inj hw).2.symm
    rcases cut_append hp with hp | ⟨t, rfl, ht⟩
    · rcases cut_blanks hbreak hp with hskip | ⟨q, rfl, hq⟩
      · exact early_readElementsFrom_end _ _ _ hskip (Nat.le_refl _)
      · have hitem := hstarves [] (c :: q) blanks_nil (cut_cons_cons.mpr hq)
        exact early_readElementsFrom_first (skipBlanks_break_append style (level + 1) hblank q)
          hclose hread hitem (Nat.le_refl _)
    · have hapart := ht.apart (apart_blockTail_alone style level (Or.inl rfl) items)
      obtain ⟨hle, hstep⟩ := readElementsFrom_first
        (skipBlanks_break_append style (level + 1) hblank (u ++ t)) hclose hread
        (hreads [] t blanks_nil hapart) (Nat.le_refl _)
      have htail := early_blockTail_elements style level hrest ht hle
      rw [← hstep] at htail
      rw [List.append_assoc]
      exact htail

/-- A member that breaks off, from the character after the opening quotation mark of its key on. -/
theorem early_readMember {σ : Type} (style : Style)
    {member : σ → String → Except Fault (Reader σ)} {state : σ} {key : String} {value : List Char}
    {read : Reader σ} (hmember : member state key = .ok read) (hne : value ≠ [])
    (hstarves : Starves read value) {p : List Char}
    (hp : Cut p (key.toList.flatMap escape ++ ['"'] ++ style.colon ++ value)) :
    Early (readMember member state p) := by
  obtain ⟨blanks, hblanks, hcolon⟩ := colon_eq style
  rw [hcolon, List.append_assoc] at hp
  rcases cut_append hp with hp | ⟨q, rfl, hq⟩
  · obtain ⟨fault, hread, hearly⟩ := early_readString key hp
    exact ⟨fault, by simp only [readMember, hread], hearly⟩
  obtain ⟨hkey, hstring⟩ := takes_string key q
  rw [List.append_assoc, List.singleton_append]
  rcases cut_cons hq with rfl | ⟨t, rfl, ht⟩
  · refine ⟨.endInObject, ?_, rfl⟩
    simp only [readMember, hstring, hmember]
    rfl
  · obtain ⟨hcolon, hread⟩ := takes_colon t
    obtain ⟨fault, hfault, hearly⟩ := hstarves.append hne hblanks ht
    refine ⟨fault, ?_, hearly⟩
    simp only [readMember, hstring, hmember, hread, hfault]

/-- Further members that break off before the end of the object. -/
theorem early_blockTail_members {σ : Type} (style : Style) (level : Nat)
    {member : σ → String → Except Fault (Reader σ)} {items : List (List Char)}
    {start p : List Char} {state final : σ}
    (hchain : Chain (WholeMember style member) state items final)
    (hp : Cut p (blockTail style level '}' items)) (h : p.length ≤ start.length) :
    Early (readMembersFrom member start false state p h) := by
  induction items generalizing state p with
  | nil =>
    rcases cut_blanks (blanks_break style level) hp with hskip | ⟨_, -, hq⟩
    · exact early_readMembersFrom_end _ _ _ hskip h
    · exact absurd hq (not_cut_nil _)
  | cons item items ih =>
    obtain ⟨next, ⟨key, value, rfl, read, hmember, hreads, hstarves⟩, hrest⟩ := hchain
    have hbreak := blanks_break style (level + 1)
    rw [blockTail_cons] at hp
    rcases cut_cons hp with rfl | ⟨q, rfl, hq⟩
    · exact early_readMembersFrom_end _ _ _ rfl h
    have hskip : skipBlanks (',' :: q) = ',' :: q := skipBlanks_cons rfl q
    rcases cut_append hq with hq | ⟨t, rfl, ht⟩
    · rcases cut_blanks hbreak hq with hskip' | ⟨t, rfl, ht⟩
      · exact early_readMembersFrom_comma _ _ hskip hskip' h
      · exact early_readMembersFrom_next hskip (skipBlanks_break_append style (level + 1) rfl t)
          (early_readMember style hmember hreads.ne_nil hstarves ht) h
    · have hapart := ht.apart (apart_blockTail_alone style level (Or.inr rfl) items)
      obtain ⟨w, hw, htakes⟩ := takes_member style hmember hreads hapart
      rw [List.append_assoc, hw] at hskip
      have h' : (',' :: (style.break (level + 1) ++ '"' :: w)).length ≤ start.length := by
        rwa [List.append_assoc, hw] at h
      obtain ⟨hle, hstep⟩ := readMembersFrom_next hskip
        (skipBlanks_break_append style (level + 1) rfl w) htakes h'
      simp only [List.append_assoc, hw, hstep]
      exact ih hrest ht hle

/-- An object that breaks off, from the character after its opening brace on. -/
theorem early_readMembers {σ : Type} (style : Style) (level : Nat)
    {member : σ → String → Except Fault (Reader σ)} {items : List (List Char)} {state final : σ}
    (hchain : Chain (WholeMember style member) state items final) {w p : List Char}
    (hw : object style level items = '{' :: w) (hp : Cut p w) :
    Early (readMembers member state p) := by
  cases items with
  | nil =>
    obtain rfl : w = ['}'] := (List.cons.inj hw).2.symm
    rcases cut_cons hp with rfl | ⟨_, _, hq⟩
    · exact early_readMembersFrom_end _ _ _ rfl (Nat.le_refl _)
    · exact absurd hq (not_cut_nil _)
  | cons item items =>
    obtain ⟨next, ⟨key, value, rfl, read, hmember, hreads, hstarves⟩, hrest⟩ := hchain
    have hbreak := blanks_break style (level + 1)
    obtain rfl : w = style.break (level + 1) ++ Json.member style key value ++
        blockTail style level '}' items := (List.cons.inj hw).2.symm
    rcases cut_append hp with hp | ⟨t, rfl, ht⟩
    · rcases cut_blanks hbreak hp with hskip | ⟨q, rfl, hq⟩
      · exact early_readMembersFrom_end _ _ _ hskip (Nat.le_refl _)
      · exact early_readMembersFrom_first (skipBlanks_break_append style (level + 1) rfl q)
          (early_readMember style hmember hreads.ne_nil hstarves hq) (Nat.le_refl _)
    · have hapart := ht.apart (apart_blockTail_alone style level (Or.inr rfl) items)
      obtain ⟨u, hu, htakes⟩ := takes_member style hmember hreads hapart
      rw [List.append_assoc, hu]
      obtain ⟨hle, hstep⟩ := readMembersFrom_first
        (skipBlanks_break_append style (level + 1) rfl u) htakes (Nat.le_refl _)
      rw [readMembers, hstep]
      exact early_blockTail_members style level hrest ht hle

/-! ## Values -/

theorem starves_after {α : Type} {first : Char} (hfirst : isBlank first = false) (expected : Shape)
    {body : Reader α} {written w : List Char} (hw : written = first :: w)
    (hbody : ∀ p, Cut p w → Early (body p)) : Starves (readAfter first expected body) written := by
  subst hw
  intro blanks p hblanks hp
  have hskip := skipBlanks_append hblanks p
  rcases cut_cons hp with rfl | ⟨q, rfl, hq⟩
  · refine ⟨.endInValue, ?_, rfl⟩
    unfold readAfter
    split
    next => rfl
    next hs => rw [hskip] at hs; cases hs
  · rw [skipBlanks_cons hfirst] at hskip
    obtain ⟨fault, hread, hearly⟩ := hbody q hq
    refine ⟨fault, ?_, hearly⟩
    unfold readAfter
    split
    next hs => rw [hskip] at hs; cases hs
    next c r hs =>
      obtain ⟨rfl, rfl⟩ := List.cons.inj (hskip.symm.trans hs)
      simp only [if_true, hread]

theorem starves_quote (text : String) : Starves readText (quote text) :=
  starves_after rfl .string rfl fun _ => early_readString text

theorem chain_whole_texts (items sofar : List String) :
    Chain (WholeElement fun sofar => some (readText.map (· :: sofar))) sofar (items.map quote)
      (items.reverse ++ sofar) := by
  induction items generalizing sofar with
  | nil => rfl
  | cons item items ih =>
    refine ⟨item :: sofar, ⟨⟨'"', _, rfl, rfl, by decide⟩, _, rfl, (reads_quote item).map _,
      (starves_quote item).map _⟩, ?_⟩
    rw [List.reverse_cons, List.append_assoc]
    exact ih (item :: sofar)

theorem starves_texts (style : Style) (level : Nat) (items : List String) :
    Starves readTexts (texts style level items) := by
  obtain ⟨w, hw⟩ : ∃ w, texts style level items = '[' :: w := by
    cases items <;> exact ⟨_, rfl⟩
  exact (starves_after rfl .sequence hw fun _ =>
    early_readElements style level (chain_whole_texts items []) hw).map _

theorem chain_whole_entries (style : Style) (entries : List (String × String))
    (sofar : SortedMap String String) :
    Chain (WholeMember style fun sofar key => .ok (readText.map (sofar.insert key ·))) sofar
      (entries.map fun e => member style e.1 (quote e.2))
      (entries.foldl (fun m e => m.insert e.1 e.2) sofar) := by
  induction entries generalizing sofar with
  | nil => rfl
  | cons e entries ih =>
    exact ⟨sofar.insert e.1 e.2, ⟨e.1, quote e.2, rfl, _, rfl, (reads_quote e.2).map _,
      (starves_quote e.2).map _⟩, ih _⟩

theorem starves_textMembers (style : Style) (level : Nat) (entries : List (String × String)) :
    Starves readTextMap (textMembers style level entries) := by
  obtain ⟨w, hw⟩ : ∃ w, textMembers style level entries = '{' :: w := by
    cases entries <;> exact ⟨_, rfl⟩
  exact starves_after rfl .map hw fun _ =>
    early_readMembers style level (chain_whole_entries style entries ∅) hw

/-- Of a written digit nothing but the blanks before it can be left. -/
theorem starves_digit (c : Char) : Starves readNatural32 [c] := by
  intro blanks p hblanks hp
  rcases cut_cons hp with rfl | ⟨_, _, hq⟩
  · have hskip := skipBlanks_append hblanks []
    refine ⟨.endInValue, ?_, rfl⟩
    unfold readNatural32
    split
    next => rfl
    next hs => rw [hskip] at hs; cases hs
  · exact absurd hq (not_cut_nil _)

/-- A written object breaks off within a struct. -/
theorem starves_struct {σ : Type} (style : Style) (level : Nat) (name : String)
    {fields : List (Field σ)} {items : List (List Char)} {state final : σ}
    (hchain : Chain (WholeMember style (memberReader fields)) state items final) :
    Starves (readStruct name fields state) (object style level items) := by
  obtain ⟨w, hw⟩ : ∃ w, object style level items = '{' :: w := by
    cases items <;> exact ⟨_, rfl⟩
  intro blanks p hblanks hp
  have hskip := skipBlanks_append hblanks p
  rw [hw] at hp
  rcases cut_cons hp with rfl | ⟨q, rfl, hq⟩
  · refine ⟨.endInValue, ?_, rfl⟩
    unfold readStruct
    split
    next => rfl
    next hs => rw [hskip] at hs; cases hs
  · rw [skipBlanks_cons rfl] at hskip
    obtain ⟨fault, hread, hearly⟩ := early_readMembers style level hchain hw hq
    refine ⟨fault, ?_, hearly⟩
    unfold readStruct
    split
    next hs => rw [hskip] at hs; cases hs
    next c r hs =>
      obtain ⟨rfl, rfl⟩ := List.cons.inj (hskip.symm.trans hs)
      simp only [if_true, hread]

/-- A text that is all but the end of a written value ends too early. -/
theorem early_readAll {α : Type} {read : Reader α} {written p : List Char}
    (h : Starves read written) (hp : Cut p written) : Early (readAll read (String.ofList p)) := by
  obtain ⟨fault, hread, hearly⟩ := h [] p blanks_nil hp
  refine ⟨fault, ?_, hearly⟩
  have hread' : read (String.ofList p).toList = .error fault := by
    rw [String.toList_ofList]
    exact hread
  rw [readAll, hread']

end HostRegistry.Json
