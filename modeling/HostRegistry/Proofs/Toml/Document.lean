import HostRegistry.Proofs.Toml.Quoted
import HostRegistry.Toml.Reader

/-!
Reading written lines: a header with a bare key, and a bare key with a written text.

Each statement takes one line off the front of a document and says what the reading is after it, so
a document is read line by line.
-/

set_option autoImplicit false

namespace HostRegistry.Toml
open Text (Rest Remainder)

/-! ## Blanks -/

theorem skipBlanks_append {blanks : List Char} (h : ∀ c ∈ blanks, isBlank c = true)
    (s : List Char) :
    skipBlanks (blanks ++ s) = skipBlanks s :=
  List.dropWhile_append_of_pos h

theorem skipBlanks_cons {c : Char} (h : isBlank c = false) (s : List Char) :
    skipBlanks (c :: s) = c :: s := by
  rw [skipBlanks, List.dropWhile_cons, h]
  rfl

/-! ## Keys -/

/-- A key that needs no quotation marks. -/
def Bare (key : String) : Prop := key.toList ≠ [] ∧ ∀ c ∈ key.toList, isBare c = true

instance (key : String) : Decidable (Bare key) :=
  decidable_of_iff (key.toList ≠ [] ∧ key.toList.all isBare = true)
    (and_congr Iff.rfl List.all_eq_true)

theorem Bare.exists_cons {key : String} (h : Bare key) :
    ∃ c w, key.toList = c :: w ∧ isBare c = true ∧ ∀ c ∈ w, isBare c = true := by
  cases hkey : key.toList with
  | nil => exact absurd hkey h.1
  | cons c w =>
    have hall := h.2
    rw [hkey] at hall
    obtain ⟨hc, hw⟩ := List.forall_mem_cons.mp hall
    exact ⟨c, w, rfl, hc, hw⟩

theorem isBare_ne {c d : Char} (hc : isBare c = true) (hd : isBare d = false) : c ≠ d := by
  rintro rfl
  rw [hc] at hd
  cases hd

theorem isBlank_of_isBare {c : Char} (h : isBare c = true) : isBlank c = false := by
  have hblank : c ≠ ' ' := isBare_ne h (by decide)
  have htab : c ≠ '\t' := isBare_ne h (by decide)
  simp only [isBlank, hblank, htab, decide_false, Bool.or_self]

theorem isBare_of_isBlank {c : Char} (h : isBlank c = true) : isBare c = false := by
  cases hbare : isBare c with
  | false => rfl
  | true =>
    rw [isBlank_of_isBare hbare] at h
    cases h

/-- A bare key is read up to the blanks and the sign after it. -/
theorem takes_key {key : String} (hkey : Bare key) (blanks : List Char) {r : List Char} {c : Char}
    (hblanks : ∀ x ∈ blanks, isBlank x = true) (hbare : isBare c = false) (hc : isBlank c = false)
    (hdot : c ≠ '.') : Takes readKey (key.toList ++ (blanks ++ c :: r)) [key] (c :: r) := by
  obtain ⟨k, w, hcons, hk, hw⟩ := hkey.exists_cons
  have hstop : ∀ x ∈ (blanks ++ c :: r).head?, isBare x = false := by
    intro x hx
    cases blanks with
    | nil =>
      obtain rfl : c = x := Option.some.inj hx
      exact hbare
    | cons b blanks =>
      obtain rfl : b = x := Option.some.inj hx
      exact isBare_of_isBlank (hblanks b List.mem_cons_self)
  obtain ⟨htake, hdrop⟩ := Text.takeWhile_append_stop hw hstop
  have hpart : Takes readKeyPart (k :: (w ++ (blanks ++ c :: r))) key (blanks ++ c :: r) := by
    refine ⟨by simp only [List.length_cons, List.length_append]; omega, ?_⟩
    simp only [readKeyPart, if_neg (isBare_ne hk (d := '"') (by decide)),
      if_neg (isBare_ne hk (d := '\'') (by decide)), hk, if_true, htake, hdrop, ← hcons,
      String.ofList_toList]
  rw [← skipBlanks_cons (isBlank_of_isBare hk)] at hpart
  obtain ⟨hlt, hread⟩ := hpart
  have hskip : skipBlanks (blanks ++ c :: r) = c :: r := by
    rw [skipBlanks_append hblanks, skipBlanks_cons hc]
  rw [hcons, List.cons_append]
  have hlen : (c :: r).length < (k :: (w ++ (blanks ++ c :: r))).length := by
    simp only [List.length_cons, List.length_append]
    omega
  have hfrom : readKeyFrom (k :: (w ++ (blanks ++ c :: r))) [] (k :: (w ++ (blanks ++ c :: r)))
      (Text.length_le_self _) = some ([key], ⟨c :: r, hlen⟩) := by
    rw [readKeyFrom]
    simp only [hread]
    split
    next hs => rw [hskip] at hs; cases hs
    next c' r' hs =>
      obtain ⟨rfl, rfl⟩ := List.cons.inj (hskip.symm.trans hs)
      simp only [hdot, if_false]
      rfl
  refine ⟨hlen, ?_⟩
  simp only [readKey, hfrom]
  rfl

/-! ## Values -/

/-- A written text is read as a value. -/
theorem takes_value (depth : Nat) (text : String) (rest : List Char) :
    Takes (readValue depth) (write text ++ '\n' :: rest) (.text text) ('\n' :: rest) := by
  obtain ⟨mark, escapes, w, hmarks, hwrite, hlt, hread⟩ := takes_write text rest
  rw [hwrite]
  refine ⟨hlt, ?_⟩
  unfold readValue
  cases hmarks with
  | basic => simp only [if_true, hread]; rfl
  | literal => simp only [Char.reduceEq, if_false, if_true, hread]; rfl

/-- A written text starts with no blank. -/
theorem skipBlanks_write (text : String) (rest : List Char) :
    skipBlanks (write text ++ '\n' :: rest) = write text ++ '\n' :: rest := by
  obtain ⟨mark, escapes, w, hmarks, hwrite, -⟩ := takes_write text rest
  rw [hwrite]
  cases hmarks <;> exact skipBlanks_cons rfl w

/-! ## Lines -/

/-- A line with a header, and the lines after it. -/
def headerLine (key : String) (rest : List Char) : List Char :=
  '[' :: (key.toList ++ ']' :: '\n' :: rest)

/-- A line with a key and a written text, and the lines after it. -/
def textLine (key text : String) (rest : List Char) : List Char :=
  key.toList ++ ' ' :: '=' :: ' ' :: (write text ++ '\n' :: rest)

theorem headerLine_append (key : String) (rest more : List Char) :
    headerLine key rest ++ more = headerLine key (rest ++ more) := by
  simp only [headerLine, List.cons_append, List.append_assoc]

theorem textLine_append (key text : String) (rest more : List Char) :
    textLine key text rest ++ more = textLine key text (rest ++ more) := by
  simp only [textLine, List.cons_append, List.append_assoc]

theorem readExpressions_break (state : Reading) (r : List Char) :
    readExpressions state ('\n' :: r) = readExpressions state r := by
  rw [readExpressions]
  rfl

theorem readHeader_of_key {state : Reading} {s r : List Char} {parts : List String}
    {entries : Entries} {h : (']' :: r).length < s.length} (hs : ∀ r', s ≠ '[' :: r')
    (hread : readKey s = some (parts, ⟨']' :: r, h⟩))
    (hopen : state.entries.openTable parts = some entries) :
    readHeader state s = some (⟨entries, parts⟩, ⟨r, Nat.lt_of_succ_lt h⟩) := by
  unfold readHeader
  split
  next r' => exact absurd rfl (hs r')
  next =>
    rw [hread]
    exact congrArg (Option.map _) hopen

theorem takes_header {state : Reading} {key : String} (hkey : Bare key) {entries : Entries}
    (hopen : state.entries.openTable [key] = some entries) (r : List Char) :
    ∃ h, readHeader state (key.toList ++ ']' :: r) = some (⟨entries, [key]⟩, ⟨r, h⟩) := by
  have hbracketed : Takes readKey (key.toList ++ ']' :: r) [key] (']' :: r) :=
    takes_key hkey [] nofun (by decide) (by decide) (by decide)
  obtain ⟨hlt, hread⟩ := hbracketed
  refine ⟨_, readHeader_of_key (fun r' heq => ?_) hread hopen⟩
  obtain ⟨k, w, hcons, hk, -⟩ := hkey.exists_cons
  rw [hcons] at heq
  exact isBare_ne hk (d := '[') (by decide) (List.cons.inj heq).1

theorem takes_entry {state : Reading} {key : String} (hkey : Bare key) {text : String}
    {entries : Entries}
    (hadd : state.entries.addBelow state.header [] key (.text text) = some entries)
    (r : List Char) :
    ∃ h, readEntry state (textLine key text r) =
      some ({ state with entries := entries }, ⟨'\n' :: r, h⟩) := by
  unfold textLine
  have hequals : Takes readKey (key.toList ++ ' ' :: '=' :: ' ' :: (write text ++ '\n' :: r)) [key]
      ('=' :: ' ' :: (write text ++ '\n' :: r)) :=
    takes_key hkey [' '] (List.forall_mem_singleton.mpr rfl) (by decide) (by decide) (by decide)
  obtain ⟨hlt, hread⟩ := hequals
  have hassigned : Takes readAssigned
      (key.toList ++ ' ' :: '=' :: ' ' :: (write text ++ '\n' :: r)) [key]
      (' ' :: (write text ++ '\n' :: r)) := by
    refine ⟨Nat.lt_of_succ_lt hlt, ?_⟩
    rw [readAssigned, hread]
    rfl
  have hvalue := takes_value (nestingLimit - 1) text r
  have hskip : skipBlanks (' ' :: (write text ++ '\n' :: r)) = write text ++ '\n' :: r :=
    skipBlanks_write text r
  rw [← hskip] at hvalue
  obtain ⟨hkeyLt, hassigned⟩ := hassigned
  obtain ⟨hvalueLt, hvalue⟩ := hvalue
  refine ⟨Nat.lt_trans (Nat.lt_of_lt_of_le hvalueLt (length_skipBlanks _)) hkeyLt, ?_⟩
  simp only [readEntry, hassigned, hvalue]
  exact congrArg (Option.map _) hadd

section Lines

variable {state next : Reading} {c : Char} {w r : List Char}

theorem readExpressions_of_header {h : ('\n' :: r).length < w.length}
    (hread : readHeader state w = some (next, ⟨'\n' :: r, h⟩)) :
    readExpressions state ('[' :: w) = readExpressions next r := by
  rw [readExpressions]
  split
  next hs => cases hs
  next c' r' hs =>
    obtain ⟨rfl, rfl⟩ := List.cons.inj (hs : '[' :: w = c' :: r')
    simp only [Char.reduceEq, or_self, if_false, if_true, hread]
    rfl

theorem readExpressions_of_entry (hc : isBare c = true) {h : ('\n' :: r).length < (c :: w).length}
    (hread : readEntry state (c :: w) = some (next, ⟨'\n' :: r, h⟩)) :
    readExpressions state (c :: w) = readExpressions next r := by
  rw [readExpressions]
  split
  next hs => rw [skipBlanks_cons (isBlank_of_isBare hc)] at hs; cases hs
  next c' r' hs =>
    rw [skipBlanks_cons (isBlank_of_isBare hc)] at hs
    obtain ⟨rfl, rfl⟩ := List.cons.inj hs
    have hcomment : c ≠ '#' := isBare_ne hc (by decide)
    have hline : c ≠ '\n' := isBare_ne hc (by decide)
    have hreturn : c ≠ '\r' := isBare_ne hc (by decide)
    have hbracket : c ≠ '[' := isBare_ne hc (by decide)
    simp only [hcomment, hline, hreturn, hbracket, or_self, if_false, hread]
    rfl

end Lines

/-- A header is followed. -/
theorem readExpressions_headerLine {state : Reading} {key : String} (hkey : Bare key)
    {entries : Entries} (hopen : state.entries.openTable [key] = some entries) (r : List Char) :
    readExpressions state (headerLine key r) = readExpressions ⟨entries, [key]⟩ r := by
  obtain ⟨_, hread⟩ := takes_header hkey hopen ('\n' :: r)
  exact readExpressions_of_header hread

/-- A text is put under its key. -/
theorem readExpressions_textLine {state : Reading} {key : String} (hkey : Bare key) {text : String}
    {entries : Entries}
    (hadd : state.entries.addBelow state.header [] key (.text text) = some entries)
    (r : List Char) :
    readExpressions state (textLine key text r) =
      readExpressions { state with entries := entries } r := by
  obtain ⟨k, w, hcons, hk, -⟩ := hkey.exists_cons
  have htakes := takes_entry hkey hadd r
  rw [textLine, hcons, List.cons_append] at htakes ⊢
  obtain ⟨_, hread⟩ := htakes
  exact readExpressions_of_entry hk hread

/-- The end of the text. -/
theorem readExpressions_nil (state : Reading) : readExpressions state [] = some state.entries := by
  rw [readExpressions]
  rfl

end HostRegistry.Toml
