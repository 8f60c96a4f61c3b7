import HostRegistry.Json.Printer
import HostRegistry.Json.Typed

/-!
What the readers make of written JSON.

`Reads` says that a reader understands a written value: with any blanks before it and any text after
it that does not run into it, the reader takes exactly the written value off. The statements follow
the printer: `reads_quote` for a text, `takes_elements` and `takes_members` for blocks whose items
are understood one after the other.
-/

set_option autoImplicit false

namespace HostRegistry.Json
open Text (Rest hexDigit?)

/-- A reader takes a value off the front of a text and leaves the rest. -/
def Takes {α : Type} (read : Reader α) (s : List Char) (value : α) (rest : List Char) : Prop :=
  ∃ h, read s = .ok (value, ⟨rest, h⟩)

/-- Blanks only. -/
def Blanks (s : List Char) : Prop := ∀ c ∈ s, isBlank c = true

/-- A text that does not run into the value before it. -/
def Apart (s : List Char) : Prop :=
  ∀ c ∈ s.head?, isBlank c = true ∨ c = ',' ∨ c = ']' ∨ c = '}'

/-- A reader understands a written value, whatever blanks stand before it. -/
def Reads {α : Type} (read : Reader α) (written : List Char) (value : α) : Prop :=
  ∀ blanks rest, Blanks blanks → Apart rest → Takes read (blanks ++ (written ++ rest)) value rest

/-! ## Blanks -/

theorem skipBlanks_append {blanks : List Char} (h : Blanks blanks) (s : List Char) :
    skipBlanks (blanks ++ s) = skipBlanks s := by
  induction blanks with
  | nil => rfl
  | cons c blanks ih =>
    have hc : isBlank c = true := h c List.mem_cons_self
    rw [List.cons_append]
    unfold skipBlanks at ih ⊢
    rw [List.dropWhile_cons, if_pos hc]
    exact ih fun c' h' => h c' (List.mem_cons_of_mem _ h')

theorem skipBlanks_cons {c : Char} (h : isBlank c = false) (s : List Char) :
    skipBlanks (c :: s) = c :: s := by
  unfold skipBlanks
  rw [List.dropWhile_cons, if_neg (by simp only [h, Bool.false_eq_true, not_false_eq_true])]

theorem blanks_nil : Blanks [] := fun _ h => absurd h List.not_mem_nil

theorem blanks_break (style : Style) (level : Nat) : Blanks (style.break level) := by
  intro c hc
  cases style with
  | compact => exact absurd hc List.not_mem_nil
  | pretty =>
    rcases List.mem_cons.mp hc with rfl | hc
    · rfl
    · rw [List.eq_of_mem_replicate hc]
      rfl

theorem apart_nil : Apart [] := fun _ h => absurd h (by simp)

/-! ## Texts -/

theorem hexDigit?_hexDigit : ∀ n < 16, hexDigit? (hexDigit n) = some n := by decide

theorem takes_escape_letter {letter c : Char} (hu : letter ≠ 'u')
    (hl : shortEscape? letter = some c) (s : List Char) : Takes readEscape (letter :: s) c s :=
  ⟨Nat.lt_succ_self _, by simp only [readEscape, hu, if_false, hl]⟩

/-- The four digits of a written control character are its code. -/
theorem takes_escape_code {c : Char} (h : c.toNat < 0x20) (s : List Char) :
    Takes readEscape
      ('u' :: '0' :: '0' :: hexDigit (c.toNat / 16) :: hexDigit (c.toNat % 16) :: s) c s := by
  have h1 := hexDigit?_hexDigit (c.toNat / 16) (by omega)
  have h2 := hexDigit?_hexDigit (c.toNat % 16) (by omega)
  have hzero : hexDigit? '0' = some 0 := rfl
  have hcode : hexValue? '0' '0' (hexDigit (c.toNat / 16)) (hexDigit (c.toNat % 16)) =
      some c.toNat := by
    simp only [hexValue?, hzero, h1, h2, Option.bind_eq_bind, Option.bind_some, Option.pure_def,
      Option.some.injEq]
    omega
  have hlow : ¬ (0xDC00 ≤ c.toNat ∧ c.toNat ≤ 0xDFFF) := by omega
  have hhigh : ¬ (0xD800 ≤ c.toNat ∧ c.toNat ≤ 0xDBFF) := by omega
  refine ⟨by simp only [List.length_cons]; omega, ?_⟩
  simp only [readEscape, if_true, readCode, readHex, hcode, hlow, hhigh, if_false,
    Char.ofNat_toNat]

/-- The three written forms of a character: a letter after a backslash, a code, or itself. -/
theorem escape_cases (c : Char) :
    (∃ letter, letter ≠ 'u' ∧ shortEscape? letter = some c ∧ escape c = ['\\', letter]) ∨
    (c.toNat < 0x20 ∧ escape c =
      ['\\', 'u', '0', '0', hexDigit (c.toNat / 16), hexDigit (c.toNat % 16)]) ∨
    (c ≠ '"' ∧ c ≠ '\\' ∧ ¬ c.toNat < 0x20 ∧ escape c = [c]) := by
  have short : ∀ letter x : Char, letter ≠ 'u' → shortEscape? letter = some x →
      escape x = ['\\', letter] → c = x →
      ∃ letter, letter ≠ 'u' ∧ shortEscape? letter = some c ∧ escape c = ['\\', letter] :=
    fun letter x hu hl he hc => ⟨letter, hu, hc ▸ hl, hc ▸ he⟩
  by_cases hquote : c = '"'
  · exact Or.inl (short '"' _ (by decide) rfl rfl hquote)
  by_cases hslash : c = '\\'
  · exact Or.inl (short '\\' _ (by decide) rfl rfl hslash)
  by_cases hb : c = '\x08'
  · exact Or.inl (short 'b' _ (by decide) rfl rfl hb)
  by_cases ht : c = '\t'
  · exact Or.inl (short 't' _ (by decide) rfl rfl ht)
  by_cases hn : c = '\n'
  · exact Or.inl (short 'n' _ (by decide) rfl rfl hn)
  by_cases hf : c = '\x0c'
  · exact Or.inl (short 'f' _ (by decide) rfl rfl hf)
  by_cases hr : c = '\r'
  · exact Or.inl (short 'r' _ (by decide) rfl rfl hr)
  by_cases hlow : c.toNat < 0x20
  · exact Or.inr (Or.inl ⟨hlow, by
      simp only [escape, hquote, hslash, hb, ht, hn, hf, hr, hlow, if_false, if_true]⟩)
  · exact Or.inr (Or.inr ⟨hquote, hslash, hlow, by
      simp only [escape, hquote, hslash, hb, ht, hn, hf, hr, hlow, if_false]⟩)

/-- Reading on from an escape is reading on after it, if the escape can be read. -/
theorem readQuotedFrom_escape {start sofar s r : List Char} {c : Char}
    (h : ('\\' :: s).length ≤ start.length) (hr : r.length ≤ start.length)
    (he : Takes readEscape s c r) :
    readQuotedFrom readEscape (· :: ·) start sofar ('\\' :: s) h =
      readQuotedFrom readEscape (· :: ·) start (c :: sofar) r hr := by
  obtain ⟨hlt, he⟩ := he
  rw [readQuotedFrom]
  simp only [Char.reduceEq, if_false, if_true, he]

/-- Reading on from the written form of a character puts the character before the others. -/
theorem readQuotedFrom_written {start sofar w s : List Char} {c : Char} (hw : w = escape c ++ s)
    (h : w.length ≤ start.length) (hs : s.length ≤ start.length) :
    readQuotedFrom readEscape (· :: ·) start sofar w h =
      readQuotedFrom readEscape (· :: ·) start (c :: sofar) s hs := by
  subst hw
  generalize he : escape c = e at h
  rcases escape_cases c with ⟨letter, hu, hl, hc⟩ | ⟨hlow, hc⟩ | ⟨hquote, hslash, hlow, hc⟩
  · obtain rfl := he.symm.trans hc
    exact readQuotedFrom_escape h hs (takes_escape_letter hu hl s)
  · obtain rfl := he.symm.trans hc
    exact readQuotedFrom_escape h hs (takes_escape_code hlow s)
  · obtain rfl := he.symm.trans hc
    simp only [List.singleton_append, readQuotedFrom, hquote, hslash, hlow, if_false]

/-- Written characters up to the closing quotation mark are read as they were. -/
theorem readQuotedFrom_flatMap (cs r sofar : List Char) {start w : List Char}
    (hw : w = cs.flatMap escape ++ '"' :: r) (h : w.length ≤ start.length) :
    ∃ hr, readQuotedFrom readEscape (· :: ·) start sofar w h =
      .ok (cs.reverse ++ sofar, ⟨r, hr⟩) := by
  induction cs generalizing sofar w with
  | nil =>
    subst hw
    refine ⟨h, ?_⟩
    simp only [List.flatMap_nil, List.nil_append, readQuotedFrom, if_true, List.reverse_nil]
  | cons c cs ih =>
    have hsplit : w = escape c ++ (cs.flatMap escape ++ '"' :: r) := by
      rw [hw, List.flatMap_cons, List.append_assoc]
    have hs : (cs.flatMap escape ++ '"' :: r).length ≤ start.length := by
      rw [hsplit, List.length_append] at h
      omega
    obtain ⟨hr, hread⟩ := ih (c :: sofar) rfl hs
    refine ⟨hr, ?_⟩
    rw [readQuotedFrom_written hsplit h hs, hread, List.reverse_cons, List.append_assoc]
    rfl

/-- A written text is read from the character after its opening quotation mark on. -/
theorem takes_string (text : String) (r : List Char) :
    Takes readString (text.toList.flatMap escape ++ '"' :: r) text r := by
  obtain ⟨hr, hread⟩ := readQuotedFrom_flatMap text.toList r [] rfl (Nat.le_refl _)
  refine ⟨hr, ?_⟩
  simp only [readString, hread, List.append_nil, List.reverse_reverse, String.ofList_toList]

/-! ## Steps of the loops over blocks -/

section Steps

variable {σ : Type} {start s r : List Char} {state : σ}

theorem readElementsFrom_close {element : σ → Option (Reader σ)} {first : Bool}
    (hskip : skipBlanks s = ']' :: r) (h : s.length ≤ start.length) :
    ∃ hr, readElementsFrom element start first state s h = .ok (state, ⟨r, hr⟩) := by
  refine ⟨Nat.lt_of_lt_of_le (length_of_skipBlanks hskip) h, ?_⟩
  rw [readElementsFrom]
  split
  next hs => rw [hskip] at hs; cases hs
  next c r' hs =>
    obtain ⟨rfl, rfl⟩ := List.cons.inj (hskip.symm.trans hs)
    rw [if_pos rfl]

/-- The first element is read where it stands. -/
theorem readElementsFrom_first {element : σ → Option (Reader σ)} {read : Reader σ} {c : Char}
    {next : σ} {rest : List Char} (hskip : skipBlanks s = c :: r) (hclose : c ≠ ']')
    (hread : element state = some read) (htakes : Takes read (c :: r) next rest)
    (h : s.length ≤ start.length) :
    ∃ hr, readElementsFrom element start true state s h =
      readElementsFrom element start false next rest hr := by
  obtain ⟨hlt, htaken⟩ := htakes
  have hr := length_of_skipBlanks hskip
  refine ⟨by rw [List.length_cons] at hlt; omega, ?_⟩
  rw [readElementsFrom]
  split
  next hs => rw [hskip] at hs; cases hs
  next c' r' hs =>
    obtain ⟨rfl, rfl⟩ := List.cons.inj (hskip.symm.trans hs)
    simp only [hclose, if_false, hread, if_true, htaken]

/-- Every other element is read after a comma. -/
theorem readElementsFrom_next {element : σ → Option (Reader σ)} {read : Reader σ} {c : Char}
    {next : σ} {r' rest : List Char} (hskip : skipBlanks s = ',' :: r)
    (hskip' : skipBlanks r = c :: r') (hclose : c ≠ ']') (hread : element state = some read)
    (htakes : Takes read r next rest) (h : s.length ≤ start.length) :
    ∃ hr, readElementsFrom element start false state s h =
      readElementsFrom element start false next rest hr := by
  obtain ⟨hlt, htaken⟩ := htakes
  have hr := length_of_skipBlanks hskip
  refine ⟨by omega, ?_⟩
  rw [readElementsFrom]
  split
  next hs => rw [hskip] at hs; cases hs
  next k rk hs =>
    obtain ⟨rfl, rfl⟩ := List.cons.inj (hskip.symm.trans hs)
    rw [if_neg (by decide)]
    simp only [hread, Bool.false_eq_true, if_false, if_true, hskip', htaken]
    split
    next h' => cases h'
    next h' => exact absurd (List.cons.inj h').1 hclose
    next => rfl

theorem readMembersFrom_close {member : σ → String → Except Fault (Reader σ)} {first : Bool}
    (hskip : skipBlanks s = '}' :: r) (h : s.length ≤ start.length) :
    ∃ hr, readMembersFrom member start first state s h = .ok (state, ⟨r, hr⟩) := by
  refine ⟨Nat.lt_of_lt_of_le (length_of_skipBlanks hskip) h, ?_⟩
  rw [readMembersFrom]
  split
  next hs => rw [hskip] at hs; cases hs
  next c r' hs =>
    obtain ⟨rfl, rfl⟩ := List.cons.inj (hskip.symm.trans hs)
    rw [if_pos rfl]

/-- The first member is read where it stands. -/
theorem readMembersFrom_first {member : σ → String → Except Fault (Reader σ)} {next : σ}
    {rest : List Char} (hskip : skipBlanks s = '"' :: r)
    (htakes : Takes (readMember member state) r next rest) (h : s.length ≤ start.length) :
    ∃ hr, readMembersFrom member start true state s h =
      readMembersFrom member start false next rest hr := by
  obtain ⟨hlt, htaken⟩ := htakes
  have hr := length_of_skipBlanks hskip
  refine ⟨by omega, ?_⟩
  rw [readMembersFrom]
  split
  next hs => rw [hskip] at hs; cases hs
  next c' r' hs =>
    obtain ⟨rfl, rfl⟩ := List.cons.inj (hskip.symm.trans hs)
    rw [if_neg (by decide)]
    simp only [if_true, htaken]

/-- Every other member is read after a comma. -/
theorem readMembersFrom_next {member : σ → String → Except Fault (Reader σ)} {next : σ}
    {r' rest : List Char} (hskip : skipBlanks s = ',' :: r) (hskip' : skipBlanks r = '"' :: r')
    (htakes : Takes (readMember member state) r' next rest) (h : s.length ≤ start.length) :
    ∃ hr, readMembersFrom member start false state s h =
      readMembersFrom member start false next rest hr := by
  obtain ⟨hlt, htaken⟩ := htakes
  have hr := length_of_skipBlanks hskip
  have hr' := length_of_skipBlanks hskip'
  refine ⟨by omega, ?_⟩
  rw [readMembersFrom]
  split
  next hs => rw [hskip] at hs; cases hs
  next c' r'' hs =>
    obtain ⟨rfl, rfl⟩ := List.cons.inj (hskip.symm.trans hs)
    rw [if_neg (by decide)]
    simp only [Bool.false_eq_true, if_false, if_true]
    split
    next hs' => rw [hskip'] at hs'; cases hs'
    next k rk hs' =>
      obtain ⟨rfl, rfl⟩ := List.cons.inj (hskip'.symm.trans hs')
      simp only [if_true, htaken]

end Steps

/-! ## Blocks -/

/-- The state after items that are taken one after the other. -/
def Chain {σ ι : Type} (step : σ → ι → σ → Prop) : σ → List ι → σ → Prop
  | state, [], final => state = final
  | state, item :: rest, final => ∃ next, step state item next ∧ Chain step next rest final

/-- An element of a list that is understood in a state. It starts with neither a blank nor the end
of the list. -/
def Element {σ : Type} (element : σ → Option (Reader σ)) (state : σ) (item : List Char)
    (next : σ) : Prop :=
  (∃ c w, item = c :: w ∧ isBlank c = false ∧ c ≠ ']') ∧
    ∃ read, element state = some read ∧ Reads read item next

/-- A member of an object that is understood in a state: its key, then its value. -/
def Member {σ : Type} (style : Style) (member : σ → String → Except Fault (Reader σ)) (state : σ)
    (item : List Char) (next : σ) : Prop :=
  ∃ key value, item = Json.member style key value ∧
    ∃ read, member state key = .ok read ∧ Reads read value next

theorem apart_blockTail (style : Style) (level : Nat) {close : Char}
    (hclose : close = ']' ∨ close = '}') (items : List (List Char)) (r : List Char) :
    Apart (blockTail style level close items ++ r) := by
  intro c hc
  cases items with
  | nil =>
    cases style with
    | compact =>
      obtain rfl : close = c := by simpa [blockTail, Style.break] using hc
      exact Or.inr (Or.inr hclose)
    | pretty =>
      obtain rfl : '\n' = c := by simpa [blockTail, Style.break] using hc
      exact Or.inl rfl
  | cons item items =>
    obtain rfl : ',' = c := by simpa [blockTail] using hc
    exact Or.inr (Or.inl rfl)

theorem skipBlanks_blockTail_nil (style : Style) (level : Nat) {close : Char}
    (hclose : isBlank close = false) (r : List Char) :
    skipBlanks (blockTail style level close [] ++ r) = close :: r := by
  rw [blockTail, List.append_assoc, skipBlanks_append (blanks_break style level)]
  exact skipBlanks_cons hclose r

theorem skipBlanks_blockTail_cons (style : Style) (level : Nat) (close : Char) (item : List Char)
    (items : List (List Char)) (r : List Char) :
    skipBlanks (blockTail style level close (item :: items) ++ r) =
      ',' :: (style.break (level + 1) ++ (item ++ (blockTail style level close items ++ r))) := by
  rw [blockTail]
  simp only [List.cons_append, List.append_assoc]
  exact skipBlanks_cons rfl _

/-- Blanks before an item are skipped. -/
theorem skipBlanks_break_append (style : Style) (level : Nat) {c : Char} (hc : isBlank c = false)
    (s : List Char) : skipBlanks (style.break level ++ c :: s) = c :: s := by
  rw [skipBlanks_append (blanks_break style level)]
  exact skipBlanks_cons hc s

/-- Further elements are read to the end of the list. -/
theorem readElementsFrom_blockTail {σ : Type} {element : σ → Option (Reader σ)} (style : Style)
    (level : Nat) (r : List Char) {items : List (List Char)} {start : List Char} {state final : σ}
    (hchain : Chain (Element element) state items final)
    (h : (blockTail style level ']' items ++ r).length ≤ start.length) :
    ∃ hr, readElementsFrom element start false state (blockTail style level ']' items ++ r) h =
      .ok (final, ⟨r, hr⟩) := by
  induction items generalizing state with
  | nil =>
    obtain rfl := hchain
    exact readElementsFrom_close (skipBlanks_blockTail_nil style level rfl r) h
  | cons item items ih =>
    obtain ⟨next, ⟨⟨c, w, rfl, hblank, hclose⟩, read, hread, hreads⟩, hrest⟩ := hchain
    have htakes := hreads (style.break (level + 1)) (blockTail style level ']' items ++ r)
      (blanks_break style _) (apart_blockTail style level (Or.inl rfl) items r)
    obtain ⟨hle, hstep⟩ := readElementsFrom_next
      (skipBlanks_blockTail_cons style level ']' (c :: w) items r)
      (skipBlanks_break_append style (level + 1) hblank _) hclose hread htakes h
    obtain ⟨hr, htail⟩ := ih hrest hle
    exact ⟨hr, hstep.trans htail⟩

/-- A written list is read from the character after its opening bracket on. -/
theorem takes_elements {σ : Type} {element : σ → Option (Reader σ)} (style : Style) (level : Nat)
    {items : List (List Char)} {state final : σ}
    (hchain : Chain (Element element) state items final)
    {w r : List Char} (hw : '[' :: w = list style level items ++ r) :
    Takes (readElements element state) w final r := by
  cases items with
  | nil =>
    obtain rfl := hchain
    obtain rfl : w = ']' :: r := (List.cons.inj hw).2
    exact readElementsFrom_close (skipBlanks_cons rfl r) (Nat.le_refl _)
  | cons item items =>
    obtain ⟨next, ⟨⟨c, w', rfl, hblank, hclose⟩, read, hread, hreads⟩, hrest⟩ := hchain
    obtain rfl : w = style.break (level + 1) ++
        (c :: w' ++ (blockTail style level ']' items ++ r)) := by
      have htail : w = style.break (level + 1) ++ c :: w' ++ blockTail style level ']' items ++ r :=
        (List.cons.inj hw).2
      simpa only [List.append_assoc] using htail
    have htakes := hreads [] (blockTail style level ']' items ++ r) blanks_nil
      (apart_blockTail style level (Or.inl rfl) items r)
    obtain ⟨hle, hstep⟩ := readElementsFrom_first
      (skipBlanks_break_append style (level + 1) hblank _) hclose hread htakes (Nat.le_refl _)
    obtain ⟨hr, htail⟩ := readElementsFrom_blockTail style level r hrest hle
    exact ⟨hr, hstep.trans htail⟩

/-- The colon of a member is read, and the value after it. -/
theorem takes_colon (s : List Char) : Takes readColon (':' :: s) () s := by
  refine ⟨Nat.lt_succ_self _, ?_⟩
  unfold readColon
  split
  next hs => cases hs
  next c r hs =>
    obtain ⟨rfl, rfl⟩ := List.cons.inj ((skipBlanks_cons (c := ':') rfl s).symm.trans hs)
    rfl

theorem colon_eq (style : Style) : ∃ blanks, Blanks blanks ∧ style.colon = ':' :: blanks := by
  cases style with
  | compact => exact ⟨[], blanks_nil, rfl⟩
  | pretty => exact ⟨[' '], fun c hc => by rw [List.mem_singleton.mp hc]; rfl, rfl⟩

/-- A written member is read from the character after the opening quotation mark of its key on. -/
theorem takes_member {σ : Type} (style : Style) {member : σ → String → Except Fault (Reader σ)}
    {state next : σ} {key : String} {value : List Char} {read : Reader σ}
    (hmember : member state key = .ok read) (hreads : Reads read value next) {r : List Char}
    (hr : Apart r) :
    ∃ w, Json.member style key value ++ r = '"' :: w ∧
      Takes (readMember member state) w next r := by
  obtain ⟨blanks, hblanks, hcolon⟩ := colon_eq style
  refine ⟨key.toList.flatMap escape ++ '"' :: ':' :: (blanks ++ (value ++ r)), ?_, ?_⟩
  · rw [Json.member, hcolon, quote]
    simp only [List.append_assoc, List.cons_append, List.nil_append]
  · obtain ⟨hkey, hstring⟩ := takes_string key (':' :: (blanks ++ (value ++ r)))
    obtain ⟨hcolon, hread⟩ := takes_colon (blanks ++ (value ++ r))
    obtain ⟨hvalue, htaken⟩ := hreads blanks r hblanks hr
    refine ⟨Nat.lt_trans hvalue (Nat.lt_trans hcolon hkey), ?_⟩
    simp only [readMember, hstring, hmember, hread, htaken]

/-- Further members are read to the end of the object. -/
theorem readMembersFrom_blockTail {σ : Type} {style : Style}
    {member : σ → String → Except Fault (Reader σ)} (level : Nat) (r : List Char)
    {items : List (List Char)} {start : List Char} {state final : σ}
    (hchain : Chain (Member style member) state items final)
    (h : (blockTail style level '}' items ++ r).length ≤ start.length) :
    ∃ hr, readMembersFrom member start false state (blockTail style level '}' items ++ r) h =
      .ok (final, ⟨r, hr⟩) := by
  induction items generalizing state with
  | nil =>
    obtain rfl := hchain
    exact readMembersFrom_close (skipBlanks_blockTail_nil style level rfl r) h
  | cons item items ih =>
    obtain ⟨next, ⟨key, value, rfl, read, hmember, hreads⟩, hrest⟩ := hchain
    obtain ⟨w, hw, htakes⟩ := takes_member style hmember hreads
      (apart_blockTail style level (Or.inr rfl) items r)
    have hcomma := skipBlanks_blockTail_cons style level '}' (Json.member style key value) items r
    rw [hw] at hcomma
    obtain ⟨hle, hstep⟩ := readMembersFrom_next hcomma
      (skipBlanks_break_append style (level + 1) rfl w) htakes h
    obtain ⟨hr, htail⟩ := ih hrest hle
    exact ⟨hr, hstep.trans htail⟩

/-- A written object is read from the character after its opening brace on. -/
theorem takes_members {σ : Type} {style : Style} {member : σ → String → Except Fault (Reader σ)}
    (level : Nat) {items : List (List Char)} {state final : σ}
    (hchain : Chain (Member style member) state items final) {w r : List Char}
    (hw : '{' :: w = object style level items ++ r) :
    Takes (readMembers member state) w final r := by
  cases items with
  | nil =>
    obtain rfl := hchain
    obtain rfl : w = '}' :: r := (List.cons.inj hw).2
    exact readMembersFrom_close (skipBlanks_cons rfl r) (Nat.le_refl _)
  | cons item items =>
    obtain ⟨next, ⟨key, value, rfl, read, hmember, hreads⟩, hrest⟩ := hchain
    obtain ⟨u, hu, htakes⟩ := takes_member style hmember hreads
      (apart_blockTail style level (Or.inr rfl) items r)
    obtain rfl : w = style.break (level + 1) ++ '"' :: u := by
      have htail : w = style.break (level + 1) ++ Json.member style key value ++
          blockTail style level '}' items ++ r := (List.cons.inj hw).2
      rw [htail, ← hu]
      simp only [List.append_assoc]
    obtain ⟨hle, hstep⟩ := readMembersFrom_first
      (skipBlanks_break_append style (level + 1) rfl u) htakes (Nat.le_refl _)
    obtain ⟨hr, htail⟩ := readMembersFrom_blockTail level r hrest hle
    exact ⟨hr, hstep.trans htail⟩

/-! ## Values -/

/-- A value that begins with the expected character is understood if its body is. -/
theorem reads_after {α : Type} {first : Char} (hfirst : isBlank first = false) (expected : Shape)
    {body : Reader α} {written : List Char} {value : α}
    (hbody : ∀ rest, ∃ w, written ++ rest = first :: w ∧ Takes body w value rest) :
    Reads (readAfter first expected body) written value := by
  intro blanks rest hblanks _
  obtain ⟨w, hw, hlt, hread⟩ := hbody rest
  have hskip : skipBlanks (blanks ++ (written ++ rest)) = first :: w := by
    rw [skipBlanks_append hblanks, hw]
    exact skipBlanks_cons hfirst w
  refine ⟨Nat.lt_trans hlt (length_of_skipBlanks hskip), ?_⟩
  unfold readAfter
  split
  next hs => rw [hskip] at hs; cases hs
  next c r hs =>
    obtain ⟨rfl, rfl⟩ := List.cons.inj (hskip.symm.trans hs)
    simp only [if_true, hread]

theorem Takes.map {α β : Type} {read : Reader α} {s rest : List Char} {value : α}
    (h : Takes read s value rest) (f : α → β) : Takes (read.map f) s (f value) rest := by
  obtain ⟨hlt, h⟩ := h
  exact ⟨hlt, by simp only [Reader.map, h]⟩

theorem Reads.map {α β : Type} {read : Reader α} {written : List Char} {value : α}
    (h : Reads read written value) (f : α → β) : Reads (read.map f) written (f value) :=
  fun blanks rest hb hr => (h blanks rest hb hr).map f

/-- A written text is understood as the text. -/
theorem reads_quote (text : String) : Reads readText (quote text) text :=
  reads_after rfl .string fun rest =>
    ⟨text.toList.flatMap escape ++ '"' :: rest,
      congrArg (List.cons '"') (List.append_assoc _ _ _), takes_string text rest⟩

/-- The texts of a list are understood one after the other. -/
theorem chain_texts (items sofar : List String) :
    Chain (Element fun sofar => some (readText.map (· :: sofar))) sofar (items.map quote)
      (items.reverse ++ sofar) := by
  induction items generalizing sofar with
  | nil => rfl
  | cons item items ih =>
    refine ⟨item :: sofar, ⟨⟨'"', _, rfl, rfl, by decide⟩, _, rfl, (reads_quote item).map _⟩, ?_⟩
    rw [List.reverse_cons, List.append_assoc]
    exact ih (item :: sofar)

/-- A written list of texts is understood as the list. -/
theorem reads_texts (style : Style) (level : Nat) (items : List String) :
    Reads readTexts (texts style level items) items := by
  have hlist : Reads (readAfter '[' .sequence
      (readElements (fun sofar => some (readText.map (· :: sofar))) []))
      (texts style level items) items.reverse := by
    apply reads_after rfl .sequence
    intro rest
    obtain ⟨w, hw⟩ : ∃ w, texts style level items ++ rest = '[' :: w := by
      cases items <;> exact ⟨_, rfl⟩
    have hchain := chain_texts items []
    rw [List.append_nil] at hchain
    exact ⟨w, hw, takes_elements style level hchain hw.symm⟩
  have hreversed := hlist.map List.reverse
  rwa [List.reverse_reverse] at hreversed

/-- The entries of a map are understood one after the other. -/
theorem chain_entries (style : Style) (entries : List (String × String))
    (sofar : SortedMap String String) :
    Chain (Member style fun sofar key => .ok (readText.map (sofar.insert key ·))) sofar
      (entries.map fun e => member style e.1 (quote e.2))
      (entries.foldl (fun m e => m.insert e.1 e.2) sofar) := by
  induction entries generalizing sofar with
  | nil => rfl
  | cons e entries ih =>
    exact ⟨sofar.insert e.1 e.2, ⟨e.1, quote e.2, rfl, _, rfl, (reads_quote e.2).map _⟩, ih _⟩

/-- A written map of texts is understood as the map of its entries in order. -/
theorem reads_textMembers (style : Style) (level : Nat) (entries : List (String × String)) :
    Reads readTextMap (textMembers style level entries) (SortedMap.ofList entries) := by
  apply reads_after rfl .map
  intro rest
  obtain ⟨w, hw⟩ : ∃ w, textMembers style level entries ++ rest = '{' :: w := by
    cases entries <;> exact ⟨_, rfl⟩
  exact ⟨w, hw, takes_members level (chain_entries style entries ∅) hw.symm⟩

/-- A written object is understood as a struct if its members are, and no required field is left
out. -/
theorem reads_struct {σ : Type} (style : Style) (level : Nat) (name : String)
    {fields : List (Field σ)} {items : List (List Char)} {state final : σ}
    (hchain : Chain (Member style (memberReader fields)) state items final)
    (hmissing : missing? final fields 0 = none) :
    Reads (readStruct name fields state) (object style level items) final := by
  intro blanks rest hblanks _
  obtain ⟨w, hw⟩ : ∃ w, object style level items ++ rest = '{' :: w := by
    cases items <;> exact ⟨_, rfl⟩
  have hskip : skipBlanks (blanks ++ (object style level items ++ rest)) = '{' :: w := by
    rw [skipBlanks_append hblanks, hw]
    exact skipBlanks_cons rfl w
  obtain ⟨hlt, hread⟩ := takes_members level hchain hw.symm
  refine ⟨Nat.lt_trans hlt (length_of_skipBlanks hskip), ?_⟩
  unfold readStruct
  split
  next hs => rw [hskip] at hs; cases hs
  next c r hs =>
    obtain ⟨rfl, rfl⟩ := List.cons.inj (hskip.symm.trans hs)
    simp only [if_true, hread, hmissing]

/-- A text that is all one understood value is read as that value. -/
theorem readAll_written {α : Type} {read : Reader α} {written : List Char} {value : α}
    (h : Reads read written value) : readAll read (String.ofList written) = .ok value := by
  have htext : [] ++ (written ++ []) = (String.ofList written).toList := by
    rw [List.nil_append, List.append_nil, String.toList_ofList]
  have htakes : Takes read (String.ofList written).toList value [] :=
    htext ▸ h [] [] blanks_nil apart_nil
  obtain ⟨hlt, hread⟩ := htakes
  rw [readAll, hread]
  rfl

end HostRegistry.Json
