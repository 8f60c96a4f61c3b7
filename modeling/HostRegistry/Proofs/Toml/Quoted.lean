import HostRegistry.Toml.Quoted

/-!
A written text is read as it was, whichever of the four forms it takes.

`takes_write` is assembled from one statement for each form. What a form cannot hold is the reason
why it was not chosen: a literal text has no mark in it, and lines have no three marks in a row that
are not escaped, so the reader takes none of theirs for the closing ones.
-/

set_option autoImplicit false

namespace HostRegistry.Toml
open Text (Rest Remainder hexDigit?)

/-- A reader takes a value off the front of a text and leaves the rest. -/
def Takes {α : Type} (read : Reader α) (s : List Char) (value : α) (rest : List Char) : Prop :=
  ∃ h, read s = some (value, ⟨rest, h⟩)

/-! ## Escapes -/

theorem hexDigit?_upperHexDigit : ∀ n < 16, hexDigit? (upperHexDigit n) = some n := by decide

theorem lineBreak?_eq_none {s : List Char} (h : ∀ c ∈ s.head?, c ≠ '\n' ∧ c ≠ '\r') :
    lineBreak? s = none := by
  unfold lineBreak?
  split
  · exact absurd rfl (h '\n' rfl).1
  · exact absurd rfl (h '\r' rfl).2
  · rfl

/-- No line ends where neither a blank nor a line break stands. -/
theorem continued?_eq_none {c : Char} (hblank : isBlank c = false) (hline : c ≠ '\n' ∧ c ≠ '\r')
    (s : List Char) : continued? (c :: s) = none := by
  have hskip : skipBlanks (c :: s) = c :: s := by
    rw [skipBlanks, List.dropWhile_cons, hblank]
    rfl
  have hbreak : lineBreak? (skipBlanks (c :: s)) = none := by
    rw [hskip]
    exact lineBreak?_eq_none fun c' hc' => by
      obtain rfl : c = c' := Option.some.inj hc'
      exact hline
  unfold continued?
  split
  · rfl
  next h => rw [hbreak] at h; cases h

theorem takes_escape_letter {letter c : Char} (hu : letter ≠ 'u') (hU : letter ≠ 'U')
    (hl : shortEscape? letter = some c) (s : List Char) : Takes readEscape (letter :: s) c s :=
  ⟨Nat.lt_succ_self _, by simp only [readEscape, hu, hU, if_false, hl]; rfl⟩

/-- The four digits of a written control character are its code. -/
theorem takes_escape_code {c : Char} (h : c.toNat < 0x20 ∨ c.toNat = 0x7F) (s : List Char) :
    Takes readEscape
      ('u' :: '0' :: '0' :: upperHexDigit (c.toNat / 16) :: upperHexDigit (c.toNat % 16) :: s) c s := by
  have hdigits : [hexDigit? '0', hexDigit? '0', hexDigit? (upperHexDigit (c.toNat / 16)),
      hexDigit? (upperHexDigit (c.toNat % 16))] =
      [some 0, some 0, some (c.toNat / 16), some (c.toNat % 16)] := by
    rw [hexDigit?_upperHexDigit (c.toNat / 16) (by omega),
      hexDigit?_upperHexDigit (c.toNat % 16) (by omega)]
    rfl
  simp only [List.cons.injEq, and_true] at hdigits
  have hcode : Text.ofDigits 16 [0, 0, c.toNat / 16, c.toNat % 16] = c.toNat := by
    simp only [Text.ofDigits, List.foldl_cons, List.foldl_nil]
    omega
  have hvalid : Nat.isValidChar c.toNat := c.valid
  refine ⟨by simp only [List.length_cons]; omega, ?_⟩
  simp [readEscape, readCode, hdigits, hcode, character?, hvalid, Rest.behind]

/-- The written forms of a character: an escape that ends no line, or itself. -/
theorem escape_cases (c : Char) :
    (∃ e, escape c = '\\' :: e ∧
      ∀ s, Takes readEscape (e ++ s) c s ∧ continued? (e ++ s) = none) ∨
    (c ≠ '"' ∧ c ≠ '\\' ∧ c ≠ '\n' ∧ isPlain c = true ∧ escape c = [c]) := by
  have short : ∀ letter : Char,
      (letter ≠ 'u' ∧ letter ≠ 'U' ∧ isBlank letter = false ∧ letter ≠ '\n' ∧ letter ≠ '\r') →
      shortEscape? letter = some c → escape c = ['\\', letter] →
      ∃ e, escape c = '\\' :: e ∧
        ∀ s, Takes readEscape (e ++ s) c s ∧ continued? (e ++ s) = none := by
    intro letter hletter hl he
    exact ⟨[letter], he, fun s => ⟨takes_escape_letter hletter.1 hletter.2.1 hl s,
      continued?_eq_none hletter.2.2.1 hletter.2.2.2 s⟩⟩
  by_cases hb : c = '\x08'
  · exact Or.inl (short 'b' (by decide) (hb ▸ rfl) (hb ▸ rfl))
  by_cases ht : c = '\t'
  · exact Or.inl (short 't' (by decide) (ht ▸ rfl) (ht ▸ rfl))
  by_cases hn : c = '\n'
  · exact Or.inl (short 'n' (by decide) (hn ▸ rfl) (hn ▸ rfl))
  by_cases hf : c = '\x0c'
  · exact Or.inl (short 'f' (by decide) (hf ▸ rfl) (hf ▸ rfl))
  by_cases hr : c = '\r'
  · exact Or.inl (short 'r' (by decide) (hr ▸ rfl) (hr ▸ rfl))
  by_cases hquote : c = '"'
  · subst hquote
    exact Or.inl (short _ (by decide) rfl rfl)
  by_cases hslash : c = '\\'
  · subst hslash
    exact Or.inl (short _ (by decide) rfl rfl)
  by_cases hcontrol : c.toNat < 0x20 ∨ c.toNat = 0x7F
  · refine Or.inl ⟨['u', '0', '0', upperHexDigit (c.toNat / 16), upperHexDigit (c.toNat % 16)], ?_,
      fun s => ⟨takes_escape_code hcontrol s, continued?_eq_none rfl (by decide) _⟩⟩
    simp only [escape, hb, ht, hn, hf, hr, hquote, hslash, hcontrol, if_false, if_true]
  · refine Or.inr ⟨hquote, hslash, hn, ?_, ?_⟩
    · rw [not_or, Nat.not_lt] at hcontrol
      simp only [isPlain, hcontrol, decide_true, ne_eq, not_false_eq_true, Bool.and_self, Bool.or_true]
    · simp only [escape, hb, ht, hn, hf, hr, hquote, hslash, hcontrol, if_false]

/-- A written character starts with no quotation mark and breaks no line. -/
theorem head_escape (c : Char) :
    ∃ d w, escape c = d :: w ∧ d ≠ '"' ∧ d ≠ '\n' ∧ d ≠ '\r' := by
  rcases escape_cases c with ⟨e, he, -⟩ | ⟨hquote, -, hn, hplain, he⟩
  · exact ⟨'\\', e, he, by decide, by decide, by decide⟩
  · refine ⟨c, [], he, hquote, hn, ?_⟩
    rintro rfl
    cases hplain

/-! ## One line -/

section Steps

variable {mark c : Char} {escapes : Bool} {start sofar s r : List Char}

theorem readLineFrom_mark (h : (mark :: r).length ≤ start.length) :
    readLineFrom mark escapes start sofar (mark :: r) h =
      some (String.ofList sofar.reverse, ⟨r, h⟩) := by
  rw [readLineFrom, if_pos rfl]

theorem readLineFrom_plain (hmark : c ≠ mark) (hescape : escapes = true → c ≠ '\\')
    (hplain : isPlain c = true) (h : (c :: r).length ≤ start.length) :
    readLineFrom mark escapes start sofar (c :: r) h =
      readLineFrom mark escapes start (c :: sofar) r (Nat.le_of_lt h) := by
  rw [readLineFrom, if_neg hmark, if_neg fun he => hescape he.1 he.2, if_pos hplain]

theorem readLineFrom_escape (hmark : '\\' ≠ mark) (htakes : Takes readEscape s c r)
    (h : ('\\' :: s).length ≤ start.length) (hr : r.length ≤ start.length) :
    readLineFrom mark true start sofar ('\\' :: s) h =
      readLineFrom mark true start (c :: sofar) r hr := by
  obtain ⟨hlt, htaken⟩ := htakes
  rw [readLineFrom, if_neg hmark, if_pos ⟨rfl, rfl⟩]
  simp only [htaken]

end Steps

/-- Written characters up to the closing quotation mark are read as they were. -/
theorem readLineFrom_basic (cs r sofar : List Char) {start w : List Char}
    (hw : w = cs.flatMap escape ++ '"' :: r) (h : w.length ≤ start.length) :
    ∃ hr, readLineFrom '"' true start sofar w h =
      some (String.ofList (sofar.reverse ++ cs), ⟨r, hr⟩) := by
  induction cs generalizing sofar w with
  | nil =>
    subst hw
    rw [List.append_nil]
    exact ⟨h, readLineFrom_mark h⟩
  | cons c cs ih =>
    subst hw
    have hs : (cs.flatMap escape ++ '"' :: r).length ≤ start.length := by
      rw [List.flatMap_cons, List.append_assoc, List.length_append] at h
      omega
    obtain ⟨hr, hread⟩ := ih (c :: sofar) rfl hs
    rw [List.reverse_cons, List.append_assoc] at hread
    refine ⟨hr, Eq.trans ?_ hread⟩
    rcases escape_cases c with ⟨e, he, hread⟩ | ⟨hquote, hslash, -, hplain, he⟩
    · simp only [List.flatMap_cons, he, List.cons_append, List.append_assoc]
      exact readLineFrom_escape (by decide) (hread _).1 _ hs
    · simp only [List.flatMap_cons, he, List.cons_append, List.nil_append]
      exact readLineFrom_plain hquote (fun _ => hslash) hplain _

/-- Characters that may stand for themselves are read as they are up to the closing mark. -/
theorem readLineFrom_literal (cs r sofar : List Char) {start w : List Char}
    (hcs : ∀ c ∈ cs, c ≠ '\'' ∧ isPlain c = true) (hw : w = cs ++ '\'' :: r)
    (h : w.length ≤ start.length) :
    ∃ hr, readLineFrom '\'' false start sofar w h =
      some (String.ofList (sofar.reverse ++ cs), ⟨r, hr⟩) := by
  induction cs generalizing sofar w with
  | nil =>
    subst hw
    rw [List.append_nil]
    exact ⟨h, readLineFrom_mark h⟩
  | cons c cs ih =>
    subst hw
    obtain ⟨⟨hmark, hplain⟩, hcs⟩ := List.forall_mem_cons.mp hcs
    obtain ⟨hr, hread⟩ := ih (c :: sofar) hcs rfl (Nat.le_of_lt h)
    rw [List.reverse_cons, List.append_assoc] at hread
    exact ⟨hr, (readLineFrom_plain hmark (fun he => Bool.noConfusion he) hplain h).trans hread⟩

/-! ## Several lines -/

section Steps

variable {mark c : Char} {escapes : Bool} {start sofar s r : List Char}

/-- A mark that two others do not follow belongs to the text. -/
theorem readLinesFrom_mark (hs : ∀ t, s ≠ mark :: mark :: t)
    (h : (mark :: s).length ≤ start.length) :
    readLinesFrom mark escapes start sofar (mark :: s) h =
      readLinesFrom mark escapes start (mark :: sofar) s (Nat.le_of_lt h) := by
  rw [readLinesFrom.eq_def]
  dsimp only
  rw [if_pos rfl]
  split
  next c₂ c₃ r₃ _ =>
    rw [if_neg]
    rintro ⟨rfl, rfl⟩
    exact hs r₃ rfl
  next => rfl

/-- Three marks close the text. Up to two more marks before them belong to it. -/
theorem readLinesFrom_close {k : Nat} (hk : k ≤ 2) (hr : ∀ c ∈ r.head?, c ≠ mark)
    (h : (List.replicate k mark ++ mark :: mark :: mark :: r).length ≤ start.length) :
    ∃ hr, readLinesFrom mark escapes start sofar
        (List.replicate k mark ++ mark :: mark :: mark :: r) h =
      some (String.ofList (sofar.reverse ++ List.replicate k mark), ⟨r, hr⟩) := by
  have hlt : r.length < start.length := by
    simp only [List.length_append, List.length_cons] at h
    omega
  refine ⟨hlt, ?_⟩
  rw [readLinesFrom.eq_def]
  obtain rfl | rfl | rfl : k = 0 ∨ k = 1 ∨ k = 2 := by omega
  · cases r with
    | nil => simp
    | cons c₄ r₄ =>
      have hc₄ : c₄ ≠ mark := hr c₄ rfl
      cases r₄ <;> simp [hc₄]
  · cases r with
    | nil => simp
    | cons c₅ r₅ =>
      have hc₅ : c₅ ≠ mark := hr c₅ rfl
      simp [hc₅]
  · simp [List.replicate_succ]

theorem readLinesFrom_escape (hmark : '\\' ≠ mark) (hcontinued : continued? s = none)
    (htakes : Takes readEscape s c r) (h : ('\\' :: s).length ≤ start.length)
    (hr : r.length ≤ start.length) :
    readLinesFrom mark true start sofar ('\\' :: s) h =
      readLinesFrom mark true start (c :: sofar) r hr := by
  obtain ⟨hlt, htaken⟩ := htakes
  rw [readLinesFrom.eq_def]
  dsimp only
  rw [if_neg hmark, if_pos ⟨rfl, rfl⟩]
  simp only [hcontinued, htaken]

theorem readLinesFrom_break (hmark : '\n' ≠ mark) (h : ('\n' :: r).length ≤ start.length) :
    readLinesFrom mark escapes start sofar ('\n' :: r) h =
      readLinesFrom mark escapes start ('\n' :: sofar) r (Nat.le_of_lt h) := by
  rw [readLinesFrom.eq_def]
  dsimp only
  rw [if_neg hmark, if_neg fun he => absurd he.2 (by decide)]
  rfl

theorem readLinesFrom_plain (hmark : c ≠ mark) (hescape : escapes = true → c ≠ '\\')
    (hline : c ≠ '\n') (hplain : isPlain c = true) (h : (c :: r).length ≤ start.length) :
    readLinesFrom mark escapes start sofar (c :: r) h =
      readLinesFrom mark escapes start (c :: sofar) r (Nat.le_of_lt h) := by
  have hbreak : lineBreak? (c :: r) = none := by
    refine lineBreak?_eq_none fun c' hc' => ?_
    obtain rfl : c = c' := Option.some.inj hc'
    refine ⟨hline, ?_⟩
    rintro rfl
    cases hplain
  rw [readLinesFrom.eq_def]
  dsimp only
  rw [if_neg hmark, if_neg fun he => hescape he.1 he.2]
  simp only [hbreak, hplain, if_true]

end Steps

/-- Lines start with a quotation mark only if the text does, and not after two others. -/
theorem escapeLines_ne_mark {quotes : Nat} {d : Char} (hd : d = '"' → quotes = 2)
    (ds s t : List Char) : escapeLines quotes (d :: ds) ++ s ≠ '"' :: t := by
  intro h
  by_cases hquote : d = '"'
  · rw [escapeLines, if_pos hquote, if_pos (hd hquote)] at h
    exact absurd (List.cons.inj h).1 (by decide)
  rw [escapeLines, if_neg hquote] at h
  split at h
  next => exact absurd (List.cons.inj h).1 (by decide)
  next =>
    obtain ⟨d', w, he, hd', -⟩ := head_escape d
    rw [he] at h
    exact hd' (List.cons.inj h).1

/-- After a quotation mark of the text, two more can follow only if they are the closing ones. -/
theorem eq_of_escapeLines_marks {quotes : Nat} {cs s t : List Char} (hpos : 0 < quotes)
    (htwo : quotes ≤ 2) (h : escapeLines quotes cs ++ s = '"' :: '"' :: t) :
    cs = [] ∨ cs = ['"'] ∧ quotes = 1 := by
  cases cs with
  | nil => exact Or.inl rfl
  | cons c cs =>
    by_cases hc : c = '"' ∧ quotes ≠ 2
    · obtain ⟨rfl, hquotes⟩ := hc
      rw [escapeLines, if_pos rfl, if_neg hquotes] at h
      obtain rfl : quotes = 1 := by omega
      cases cs with
      | nil => exact Or.inr ⟨rfl, rfl⟩
      | cons d ds =>
        exact absurd (List.cons.inj h).2 (escapeLines_ne_mark (fun _ => rfl) ds s _)
    · have hmark : c = '"' → quotes = 2 := fun hquote => Decidable.byContradiction fun hquotes =>
        hc ⟨hquote, hquotes⟩
      exact absurd h (escapeLines_ne_mark hmark cs s _)

/-- Lines with escapes are read as they were up to the closing marks. -/
theorem readLinesFrom_basic (cs r : List Char) (hr : ∀ c ∈ r.head?, c ≠ '"') {quotes : Nat}
    (hquotes : quotes ≤ 2) (sofar : List Char) {start w : List Char}
    (hw : w = escapeLines quotes cs ++ '"' :: '"' :: '"' :: r) (h : w.length ≤ start.length) :
    ∃ hr, readLinesFrom '"' true start sofar w h =
      some (String.ofList (sofar.reverse ++ cs), ⟨r, hr⟩) := by
  induction cs generalizing quotes sofar w with
  | nil =>
    subst hw
    exact readLinesFrom_close (k := 0) (by decide) hr h
  | cons c cs ih =>
    -- Whatever form the character has, the lines after it are read with it put before them.
    have rest : ∀ {quotes : Nat} {s : List Char}, quotes ≤ 2 →
        s = escapeLines quotes cs ++ '"' :: '"' :: '"' :: r → ∀ hs : s.length ≤ start.length,
        ∃ hr, readLinesFrom '"' true start (c :: sofar) s hs =
          some (String.ofList (sofar.reverse ++ c :: cs), ⟨r, hr⟩) := by
      intro quotes s hquotes hs hle
      have hread := ih hquotes (c :: sofar) hs hle
      rwa [List.reverse_cons, List.append_assoc] at hread
    rw [escapeLines] at hw
    by_cases hc : c = '"'
    · rw [if_pos hc] at hw
      subst hc
      by_cases hescaped : quotes = 2
      · rw [if_pos hescaped] at hw
        subst hw
        have hle := Nat.le_of_lt (Nat.lt_of_succ_lt h)
        obtain ⟨hr, hread⟩ := rest (Nat.zero_le 2) rfl hle
        exact ⟨hr, (readLinesFrom_escape (by decide) (continued?_eq_none rfl (by decide) _)
          (takes_escape_letter (by decide) (by decide) rfl _) h hle).trans hread⟩
      rw [if_neg hescaped] at hw
      subst hw
      -- The closing marks are met here if the text ends in one quotation mark or two.
      by_cases hend : cs = [] ∨ cs = ['"'] ∧ quotes + 1 = 1
      · rcases hend with rfl | ⟨rfl, hzero⟩
        · exact readLinesFrom_close (k := 1) (by decide) hr h
        · obtain rfl : quotes = 0 := Nat.succ.inj hzero
          exact readLinesFrom_close (k := 2) (by decide) hr h
      · obtain ⟨hr, hread⟩ := @rest (quotes + 1) _ (by omega) rfl (Nat.le_of_lt h)
        refine ⟨hr, (readLinesFrom_mark (fun t heq => hend ?_) h).trans hread⟩
        exact eq_of_escapeLines_marks (Nat.succ_pos quotes) (by omega) heq
    rw [if_neg hc] at hw
    by_cases hn : c = '\n'
    · rw [if_pos hn] at hw
      subst hn hw
      obtain ⟨hr, hread⟩ := rest (Nat.zero_le 2) rfl (Nat.le_of_lt h)
      exact ⟨hr, (readLinesFrom_break (by decide) h).trans hread⟩
    rw [if_neg hn] at hw
    have hle : (escapeLines 0 cs ++ '"' :: '"' :: '"' :: r).length ≤ start.length := by
      rw [hw, List.append_assoc, List.length_append] at h
      omega
    obtain ⟨hr, hread⟩ := rest (Nat.zero_le 2) rfl hle
    rcases escape_cases c with ⟨e, he, hescape⟩ | ⟨hquote, hslash, -, hplain, he⟩
    · rw [he, List.append_assoc] at hw
      subst hw
      obtain ⟨htakes, hcontinued⟩ := hescape (escapeLines 0 cs ++ '"' :: '"' :: '"' :: r)
      exact ⟨hr, (readLinesFrom_escape (by decide) hcontinued htakes h hle).trans hread⟩
    · rw [he] at hw
      subst hw
      exact ⟨hr, (readLinesFrom_plain hquote (fun _ => hslash) hn hplain h).trans hread⟩

theorem hasTriple_tail {mark c : Char} {cs : List Char} (h : hasTriple mark (c :: cs) = false) :
    hasTriple mark cs = false := by
  match cs, h with
  | [], _ => rfl
  | [_], _ => rfl
  | a :: b :: cs, h =>
    rw [hasTriple, Bool.or_eq_false_iff] at h
    exact h.2

/-- Lines without escapes are read as they are up to the closing marks. -/
theorem readLinesFrom_literal (cs r : List Char) (hr : ∀ c ∈ r.head?, c ≠ '\'')
    (hcs : ∀ c ∈ cs, c = '\n' ∨ isPlain c = true) (htriple : hasTriple '\'' cs = false)
    (sofar : List Char) {start w : List Char} (hw : w = cs ++ '\'' :: '\'' :: '\'' :: r)
    (h : w.length ≤ start.length) :
    ∃ hr, readLinesFrom '\'' false start sofar w h =
      some (String.ofList (sofar.reverse ++ cs), ⟨r, hr⟩) := by
  induction cs generalizing sofar w with
  | nil =>
    subst hw
    exact readLinesFrom_close (k := 0) (by decide) hr h
  | cons c cs ih =>
    subst hw
    obtain ⟨hc, hcs⟩ := List.forall_mem_cons.mp hcs
    obtain ⟨hlt, hread⟩ := ih hcs (hasTriple_tail htriple) (c :: sofar) rfl (Nat.le_of_lt h)
    rw [List.reverse_cons, List.append_assoc] at hread
    by_cases hmark : c = '\''
    · subst hmark
      match cs, htriple, h, hlt, hread with
      | [], _, h, _, _ => exact readLinesFrom_close (k := 1) (by decide) hr h
      | [a], _, h, hlt, hread =>
        by_cases ha : a = '\''
        · subst ha
          exact readLinesFrom_close (k := 2) (by decide) hr h
        · exact ⟨hlt, (readLinesFrom_mark (fun t heq => ha (List.cons.inj heq).1) h).trans hread⟩
      | a :: b :: cs, htriple, h, hlt, hread =>
        refine ⟨hlt, (readLinesFrom_mark (fun t heq => ?_) h).trans hread⟩
        obtain ⟨ha, htail⟩ := List.cons.inj heq
        have hb := (List.cons.inj htail).1
        simp [hasTriple, ha, hb] at htriple
    · refine ⟨hlt, Eq.trans ?_ hread⟩
      by_cases hn : c = '\n'
      · subst hn
        exact readLinesFrom_break (by decide) h
      · exact readLinesFrom_plain hmark (fun he => Bool.noConfusion he) hn (hc.resolve_left hn) h

/-! ## The four forms -/

/-- A mark that two others do not follow opens a text on one line. -/
theorem readMarked_line {mark : Char} {escapes : Bool} {w : List Char}
    (hw : ∀ t, w ≠ mark :: mark :: t) :
    readMarked mark escapes (mark :: w) =
      readLineFrom mark escapes (mark :: w) [] w (Text.length_le_cons mark w) := by
  unfold readMarked
  dsimp only
  rw [if_pos rfl]
  split
  next c₂ c₃ r₃ =>
    rw [if_neg]
    rintro ⟨rfl, rfl⟩
    exact hw r₃ rfl
  next => rfl

/-- Three marks open a text on several lines. -/
theorem takes_lines {mark : Char} {escapes : Bool} {w body r : List Char} {text : String}
    (hbody : (dropLineBreak w).1 = body)
    (hread : ∀ h : body.length ≤ (mark :: mark :: mark :: w).length,
      ∃ hr, readLinesFrom mark escapes (mark :: mark :: mark :: w) [] body h =
        some (text, ⟨r, hr⟩)) :
    Takes (readMarked mark escapes) (mark :: mark :: mark :: w) text r := by
  subst hbody
  have hle : (dropLineBreak w).1.length ≤ (mark :: mark :: mark :: w).length := by
    have := (dropLineBreak w).2
    simp only [List.length_cons]
    omega
  obtain ⟨hr, hread⟩ := hread hle
  refine ⟨hr, ?_⟩
  simp only [readMarked, if_true, and_self, hread]

theorem formOf_literal {cs : List Char} (h : formOf cs = .literal) :
    ∀ c ∈ cs, c ≠ '\'' ∧ isPlain c = true := by
  simp only [formOf] at h
  split at h
  · cases h
  split at h
  next hform =>
    simp only [Bool.and_eq_true, List.all_eq_true, Bool.or_eq_true, decide_eq_true_eq] at hform
    obtain ⟨hprintable, hmarks⟩ := hform
    intro c hc
    exact ⟨(hmarks c hc).1, (hprintable c hc).resolve_right (hmarks c hc).2⟩
  next =>
    split at h
    · cases h
    split at h
    · cases h
    split at h <;> cases h

theorem formOf_literalLines {cs : List Char} (h : formOf cs = .literalLines) :
    (∀ c ∈ cs, c = '\n' ∨ isPlain c = true) ∧ hasTriple '\'' cs = false := by
  simp only [formOf] at h
  split at h
  · cases h
  split at h
  · cases h
  split at h
  · cases h
  split at h
  next hform =>
    simp only [Bool.and_eq_true, Bool.not_eq_true', List.all_eq_true, Bool.or_eq_true,
      decide_eq_true_eq] at hform
    exact ⟨fun c hc => (hform.1 c hc).symm, hform.2⟩
  next => split at h <;> cases h

/-- The line break after the opening marks is no part of the text. -/
theorem dropLineBreak_openingBreak {cs body : List Char}
    (h : '\n' ∉ cs → ∀ c ∈ body.head?, c ≠ '\n' ∧ c ≠ '\r') :
    (dropLineBreak (openingBreak cs ++ body)).1 = body := by
  by_cases hn : '\n' ∈ cs
  · rw [openingBreak, if_pos (List.contains_iff_mem.mpr hn)]
    rfl
  · rw [openingBreak, if_neg (fun hc => hn (List.contains_iff_mem.mp hc)), List.nil_append,
      dropLineBreak, lineBreak?_eq_none (h hn)]
    rfl

theorem head_escapeLines {cs : List Char} (h : '\n' ∉ cs) (s : List Char) :
    ∀ c ∈ (escapeLines 0 cs ++ '"' :: s).head?, c ≠ '\n' ∧ c ≠ '\r' := by
  intro x hx
  cases cs with
  | nil =>
    obtain rfl : '"' = x := Option.some.inj hx
    decide
  | cons c cs =>
    rw [escapeLines] at hx
    split at hx
    · obtain rfl : '"' = x := Option.some.inj hx
      decide
    · have hc : c ≠ '\n' := fun hc => h (hc ▸ List.mem_cons_self)
      rw [if_neg hc] at hx
      obtain ⟨d, w, he, -, hline⟩ := head_escape c
      rw [he] at hx
      obtain rfl : d = x := Option.some.inj hx
      exact hline

section Forms

variable (rest : List Char)

theorem head_break {mark : Char} (hmark : mark ≠ '\n') : ∀ c ∈ ('\n' :: rest).head?, c ≠ mark := by
  rintro c hc rfl
  exact hmark (Option.some.inj hc).symm

theorem takes_basic (cs : List Char) :
    Takes (readMarked '"' true) ('"' :: (cs.flatMap escape ++ '"' :: '\n' :: rest))
      (String.ofList cs) ('\n' :: rest) := by
  obtain ⟨hr, hread⟩ := readLineFrom_basic cs ('\n' :: rest) [] rfl
    (Text.length_le_cons '"' (cs.flatMap escape ++ '"' :: '\n' :: rest))
  refine ⟨hr, (readMarked_line fun t heq => ?_).trans hread⟩
  cases cs with
  | nil => exact absurd (List.cons.inj (List.cons.inj heq).2).1 (by decide)
  | cons c cs =>
    obtain ⟨d, w, he, hd, -⟩ := head_escape c
    rw [List.flatMap_cons, he] at heq
    exact hd (List.cons.inj heq).1

theorem takes_literal {cs : List Char} (hform : formOf cs = .literal) :
    Takes (readMarked '\'' false) ('\'' :: (cs ++ '\'' :: '\n' :: rest)) (String.ofList cs)
      ('\n' :: rest) := by
  have hmarks := formOf_literal hform
  obtain ⟨hr, hread⟩ := readLineFrom_literal cs ('\n' :: rest) [] hmarks rfl
    (Text.length_le_cons '\'' (cs ++ '\'' :: '\n' :: rest))
  refine ⟨hr, (readMarked_line fun t heq => ?_).trans hread⟩
  cases cs with
  | nil => exact absurd (List.cons.inj (List.cons.inj heq).2).1 (by decide)
  | cons c cs => exact (hmarks c List.mem_cons_self).1 (List.cons.inj heq).1

theorem takes_basicLines (cs : List Char) :
    Takes (readMarked '"' true)
      ('"' :: '"' :: '"' :: (openingBreak cs ++ (escapeLines 0 cs ++ '"' :: '"' :: '"' :: '\n' :: rest)))
      (String.ofList cs) ('\n' :: rest) :=
  takes_lines (dropLineBreak_openingBreak fun hn => head_escapeLines hn _)
    (readLinesFrom_basic cs _ (head_break rest (by decide)) (Nat.zero_le 2) [] rfl)

theorem takes_literalLines {cs : List Char} (hform : formOf cs = .literalLines) :
    Takes (readMarked '\'' false)
      ('\'' :: '\'' :: '\'' :: (openingBreak cs ++ (cs ++ '\'' :: '\'' :: '\'' :: '\n' :: rest)))
      (String.ofList cs) ('\n' :: rest) := by
  obtain ⟨hprintable, htriple⟩ := formOf_literalLines hform
  refine takes_lines (dropLineBreak_openingBreak fun hn => ?_)
    (readLinesFrom_literal cs _ (head_break rest (by decide)) hprintable htriple [] rfl)
  intro x hx
  cases cs with
  | nil =>
    obtain rfl : '\'' = x := Option.some.inj hx
    decide
  | cons c cs =>
    obtain rfl : c = x := Option.some.inj hx
    refine ⟨fun hc => hn (hc ▸ List.mem_cons_self), ?_⟩
    rintro rfl
    rcases hprintable _ List.mem_cons_self with hc | hc <;> cases hc

end Forms

/-- The marks of a text: quotation marks where it has escapes, and apostrophes where it has none. -/
inductive Marks : Char → Bool → Prop where
  | basic : Marks '"' true
  | literal : Marks '\'' false

/-- A written text that a line break follows is read as the text. -/
theorem takes_write (text : String) (rest : List Char) :
    ∃ mark escapes w, Marks mark escapes ∧ write text ++ '\n' :: rest = mark :: w ∧
      Takes (readMarked mark escapes) (mark :: w) text ('\n' :: rest) := by
  generalize hcs : text.toList = cs
  obtain rfl : text = String.ofList cs := by rw [← hcs, String.ofList_toList]
  simp only [write, hcs]
  cases hform : formOf cs with
  | basic =>
    refine ⟨'"', true, _, .basic, ?_, takes_basic rest cs⟩
    simp only [List.cons_append, List.append_assoc, List.nil_append]
  | literal =>
    refine ⟨'\'', false, _, .literal, ?_, takes_literal rest hform⟩
    simp only [List.cons_append, List.append_assoc, List.nil_append]
  | basicLines =>
    refine ⟨'"', true, _, .basic, ?_, takes_basicLines rest cs⟩
    simp only [List.cons_append, List.append_assoc, List.nil_append]
  | literalLines =>
    refine ⟨'\'', false, _, .literal, ?_, takes_literalLines rest hform⟩
    simp only [List.cons_append, List.append_assoc, List.nil_append]

end HostRegistry.Toml
