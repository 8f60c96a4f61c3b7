import HostRegistry.Text.Quoted
import HostRegistry.Text.Rest

/-!
Quoted texts tell what they quote, and nothing in them is hidden.

A writer is `SelfDelimiting` if what it wrote can be told apart from what follows. The escape of a
character is, since it can be read back (`unescape_escape`), and so are quoted texts, lists of them
and named ones: what stands between two items or after the last one is never how an item starts.
-/

set_option autoImplicit false

namespace HostRegistry.Text

/-! ## Writers that say where they end -/

/-- What was written and what follows it can be told from the text of both. -/
structure SelfDelimiting {α : Type} (write : α → List Char) : Prop where
  tell {a b : α} {x y : List Char} : write a ++ x = write b ++ y → a = b ∧ x = y

namespace SelfDelimiting

variable {α β : Type} {write : α → List Char} {writeOther : β → List Char}

/-- A fixed text may come first. -/
theorem lead (h : SelfDelimiting write) (front : List Char) :
    SelfDelimiting fun a => front ++ write a where
  tell heq := by
    rw [List.append_assoc, List.append_assoc] at heq
    exact h.tell (List.append_cancel_left heq)

/-- A fixed text may come last. -/
theorem trail (h : SelfDelimiting write) (back : List Char) :
    SelfDelimiting fun a => write a ++ back where
  tell heq := by
    rw [List.append_assoc, List.append_assoc] at heq
    obtain ⟨hsame, hrest⟩ := h.tell heq
    exact ⟨hsame, List.append_cancel_left hrest⟩

/-- One thing may come after the other. -/
theorem pair (h : SelfDelimiting write) (hother : SelfDelimiting writeOther) :
    SelfDelimiting fun p : α × β => write p.1 ++ writeOther p.2 where
  tell heq := by
    rw [List.append_assoc, List.append_assoc] at heq
    obtain ⟨hfirst, hrest⟩ := h.tell heq
    obtain ⟨hsecond, hend⟩ := hother.tell hrest
    exact ⟨Prod.ext hfirst hsecond, hend⟩

/-- A thing may be written as another one that tells it. -/
theorem comap (h : SelfDelimiting write) {f : β → α} (hf : ∀ {a b : β}, f a = f b → a = b) :
    SelfDelimiting fun b => write (f b) where
  tell heq := (h.tell heq).imp_left hf

/-- Items in a row may end with a character with which none of them starts. -/
theorem row (h : SelfDelimiting write) (stop : Char) (hstop : ∀ a x y, write a ++ x ≠ stop :: y) :
    SelfDelimiting fun items : List α => items.flatMap write ++ [stop] where
  tell {as bs x y} heq := by
    simp only [List.append_assoc, List.singleton_append] at heq
    induction as generalizing bs with
    | nil =>
      cases bs with
      | nil => exact ⟨rfl, (List.cons.inj heq).2⟩
      | cons b bs =>
        rw [List.flatMap_cons, List.append_assoc] at heq
        exact absurd heq.symm (hstop b _ _)
    | cons a as ih =>
      cases bs with
      | nil =>
        rw [List.flatMap_cons, List.append_assoc] at heq
        exact absurd heq (hstop a _ _)
      | cons b bs =>
        rw [List.flatMap_cons, List.flatMap_cons, List.append_assoc, List.append_assoc] at heq
        obtain ⟨rfl, htail⟩ := h.tell heq
        obtain ⟨rfl, hrest⟩ := ih htail
        exact ⟨rfl, hrest⟩

end SelfDelimiting

/-- After the first item each one has a comma before it. -/
theorem commaSeparated_cons (item : List Char) (rest : List (List Char)) :
    commaSeparated (item :: rest) = item ++ rest.flatMap ([',', ' '] ++ ·) := by
  induction rest generalizing item with
  | nil => exact (List.append_nil item).symm
  | cons next rest ih =>
    rw [commaSeparated, ih, List.flatMap_cons, List.append_assoc, List.append_assoc]
    exact nofun

/-- Items with commas between them may end with a character, not the comma, with which none of them
starts. -/
theorem SelfDelimiting.commas {α : Type} {write : α → List Char} (h : SelfDelimiting write)
    (stop : Char) (hstop : ∀ a x y, write a ++ x ≠ stop :: y) (hcomma : ',' ≠ stop) :
    SelfDelimiting fun items : List α => commaSeparated (items.map write) ++ [stop] where
  tell {as bs x y} heq := by
    have hrow : SelfDelimiting fun items : List α =>
        items.flatMap (fun a => [',', ' '] ++ write a) ++ [stop] :=
      (h.lead [',', ' ']).row stop fun a x y heq => hcomma (List.cons.inj heq).1
    cases as with
    | nil =>
      cases bs with
      | nil => exact ⟨rfl, (List.cons.inj heq).2⟩
      | cons b bs =>
        change stop :: x = commaSeparated (write b :: bs.map write) ++ [stop] ++ y at heq
        rw [commaSeparated_cons, List.append_assoc, List.append_assoc] at heq
        exact absurd heq.symm (hstop b _ x)
    | cons a as =>
      rw [List.map_cons, commaSeparated_cons, List.append_assoc, List.append_assoc] at heq
      cases bs with
      | nil => exact absurd heq (hstop a _ y)
      | cons b bs =>
        rw [List.map_cons, commaSeparated_cons, List.append_assoc, List.append_assoc] at heq
        obtain ⟨rfl, htail⟩ := h.tell heq
        rw [← List.append_assoc, ← List.append_assoc, List.flatMap_map, List.flatMap_map] at htail
        obtain ⟨rfl, hrest⟩ := hrow.tell htail
        exact ⟨rfl, hrest⟩

/-! ## Escapes -/

/-- The number that hexadecimal digits are. -/
def ofHex (digits : List Char) : Nat := ofDigits 16 (digits.filterMap hexDigit?)

theorem hexDigit?_digitChar : ∀ n < 16, hexDigit? (Nat.digitChar n) = some n := by decide

theorem ofHex_concat (digits : List Char) {n : Nat} (h : n < 16) :
    ofHex (digits ++ [Nat.digitChar n]) = ofHex digits * 16 + n := by
  rw [ofHex, List.filterMap_append, List.filterMap_cons_some (hexDigit?_digitChar n h),
    List.filterMap_nil, ofDigits, List.foldl_append, ← ofDigits, ← ofHex]
  rfl

/-- Hexadecimal digits are read as the number they were made of. -/
theorem ofHex_toDigits (n : Nat) : ofHex (Nat.toDigits 16 n) = n := by
  induction n using Nat.strongRecOn with
  | _ n ih =>
    rw [Nat.toDigits_eq_if (by decide)]
    split
    next h =>
      have hone := ofHex_concat [] h
      rw [List.nil_append] at hone
      rw [hone]
      exact Nat.zero_add n
    next h =>
      rw [ofHex_concat _ (Nat.mod_lt n (by decide)), ih (n / 16) (by omega)]
      omega

/-- The digits of a number are below its base. -/
theorem exists_digitChar_of_mem_toDigits {b n : Nat} {c : Char} (hb : 1 < b)
    (h : c ∈ Nat.toDigits b n) : ∃ d < b, c = Nat.digitChar d := by
  induction n using Nat.strongRecOn with
  | _ n ih =>
    rw [Nat.toDigits_eq_if hb] at h
    split at h
    next hlt => exact ⟨n, hlt, List.mem_singleton.mp h⟩
    next hle =>
      rcases List.mem_append.mp h with h | h
      · exact ih (n / b) (Nat.div_lt_self (by omega) hb) h
      · exact ⟨n % b, Nat.mod_lt n (by omega), List.mem_singleton.mp h⟩

/-- The character with a short escape. -/
def unescapeShort (c : Char) : Char :=
  if c = '0' then '\x00' else if c = 't' then '\t' else if c = 'r' then '\r'
  else if c = 'n' then '\n' else c

/-- The character that a text starts with the escape of, and what follows. -/
def unescape : List Char → Option (Char × List Char)
  | [] => none
  | '\\' :: 'u' :: '{' :: rest =>
    some (Char.ofNat (ofHex (rest.takeWhile (· ≠ '}'))), (rest.dropWhile (· ≠ '}')).tail)
  | '\\' :: c :: rest => some (unescapeShort c, rest)
  | c :: rest => some (c, rest)

theorem brace_not_mem_toDigits (n : Nat) : ∀ c ∈ Nat.toDigits 16 n, decide (c ≠ '}') = true := by
  have hdigits : ∀ d < 16, decide (Nat.digitChar d ≠ '}') = true := by decide
  intro c hc
  obtain ⟨d, hd, rfl⟩ := exists_digitChar_of_mem_toDigits (by decide) hc
  exact hdigits d hd

/-- What was escaped is read back. -/
theorem unescape_escape (c : Char) (rest : List Char) :
    unescape (escape c ++ rest) = some (c, rest) := by
  unfold escape
  iterate 5
    split
    next h => rw [h]; rfl
  split
  next h => rw [h]; rfl
  next hplain =>
    split
    next =>
      have hstop : ∀ d ∈ ('}' :: rest).head?, decide (d ≠ '}') = false := by
        rintro d ⟨⟩
        rfl
      obtain ⟨htake, hdrop⟩ := takeWhile_append_stop (brace_not_mem_toDigits c.toNat) hstop
      simp only [List.append_assoc, List.cons_append, List.nil_append]
      rw [unescape, htake, hdrop, ofHex_toDigits, Char.ofNat_toNat]
      rfl
    next =>
      rw [List.singleton_append, unescape]
      · exact fun _ h => absurd h hplain
      · exact fun _ _ h => absurd h hplain

theorem selfDelimiting_escape : SelfDelimiting escape where
  tell heq := by
    have hread := congrArg unescape heq
    rw [unescape_escape, unescape_escape, Option.some.injEq, Prod.mk.injEq] at hread
    exact hread

/-- No written character starts with a quotation mark. -/
theorem escape_append_ne (c : Char) (x y : List Char) : escape c ++ x ≠ '"' :: y := by
  intro heq
  have hread : c = '"' := by
    have h := unescape_escape c x
    rw [heq, unescape] at h
    · exact (Prod.mk.inj (Option.some.inj h)).1.symm
    · exact nofun
    · exact nofun
  rw [hread] at heq
  cases heq

/-! ## Quoted texts -/

theorem selfDelimiting_quotedChars : SelfDelimiting quotedChars :=
  (selfDelimiting_escape.row '"' escape_append_ne).lead ['"']

theorem selfDelimiting_quoted : SelfDelimiting fun s : String => quotedChars s.toList :=
  selfDelimiting_quotedChars.comap String.toList_inj.mp

theorem selfDelimiting_quotedList : SelfDelimiting quotedList :=
  (selfDelimiting_quoted.commas ']' (fun _ _ _ => nofun) (by decide)).lead ['[']

theorem selfDelimiting_quotedEntries : SelfDelimiting quotedEntries :=
  (((selfDelimiting_quoted.trail [':', ' ']).pair selfDelimiting_quoted).commas '}'
    (fun _ _ _ => nofun) (by decide)).lead ['{']

/-! ## Nothing hidden -/

/-- No character of a text is hidden. -/
def Clear (w : List Char) : Prop := ∀ c ∈ w, hidden c = false

instance (w : List Char) : Decidable (Clear w) :=
  List.decidableBAll (fun c => hidden c = false) w

section Clear

variable {v w : List Char}

theorem clear_append : Clear (v ++ w) ↔ Clear v ∧ Clear w := List.forall_mem_append

theorem clear_flatMap {α : Type} {write : α → List Char} {items : List α}
    (h : ∀ a ∈ items, Clear (write a)) : Clear (items.flatMap write) := by
  intro c hc
  obtain ⟨a, ha, hmem⟩ := List.mem_flatMap.mp hc
  exact h a ha c hmem

theorem clear_toDigits {b : Nat} (hb : 1 < b) (hmax : b ≤ 16) (n : Nat) :
    Clear (Nat.toDigits b n) := by
  have hdigits : ∀ d < 16, hidden (Nat.digitChar d) = false := by decide
  intro c hc
  obtain ⟨d, hd, rfl⟩ := exists_digitChar_of_mem_toDigits hb hc
  exact hdigits d (Nat.lt_of_lt_of_le hd hmax)

/-- A written character is one that is not hidden, or a short text of such. -/
theorem clear_escape (c : Char) : Clear (escape c) := by
  unfold escape
  iterate 6
    split
    next => decide
  split
  next =>
    rw [clear_append, clear_append]
    exact ⟨⟨by decide, clear_toDigits (by decide) (by decide) c.toNat⟩, by decide⟩
  next hc =>
    intro d hd
    rw [List.mem_singleton.mp hd]
    exact Bool.eq_false_iff.mpr hc

theorem clear_quotedChars (cs : List Char) : Clear (quotedChars cs) := by
  have hcontent : Clear (cs.flatMap escape) := clear_flatMap fun c _ => clear_escape c
  exact clear_append.mpr ⟨clear_append.mpr ⟨(by decide : Clear ['"']), hcontent⟩, by decide⟩

theorem clear_commaSeparated {α : Type} {write : α → List Char} (h : ∀ a, Clear (write a))
    (items : List α) : Clear (commaSeparated (items.map write)) := by
  cases items with
  | nil => exact nofun
  | cons item rest =>
    rw [List.map_cons, commaSeparated_cons, clear_append, List.flatMap_map]
    exact ⟨h item, clear_flatMap fun next _ => clear_append.mpr ⟨by decide, h next⟩⟩

theorem clear_quotedList (items : List String) : Clear (quotedList items) := by
  have hitems := clear_commaSeparated (fun s : String => clear_quotedChars s.toList) items
  exact clear_append.mpr ⟨clear_append.mpr ⟨(by decide : Clear ['[']), hitems⟩, by decide⟩

theorem clear_quotedEntries (entries : List (String × String)) : Clear (quotedEntries entries) := by
  have hentry : ∀ e : String × String,
      Clear (quotedChars e.1.toList ++ [':', ' '] ++ quotedChars e.2.toList) := by
    intro e
    rw [clear_append, clear_append]
    exact ⟨⟨clear_quotedChars e.1.toList, by decide⟩, clear_quotedChars e.2.toList⟩
  have hitems := clear_commaSeparated hentry entries
  exact clear_append.mpr ⟨clear_append.mpr ⟨(by decide : Clear ['{']), hitems⟩, by decide⟩

/-- A character that can end a line or command a terminal: a control character, or a separator of
lines or of paragraphs. -/
def Disruptive (c : Char) : Prop :=
  c.toNat < 0x20 ∨ (0x7F ≤ c.toNat ∧ c.toNat < 0xA0) ∨ c.toNat = 0x2028 ∨ c.toNat = 0x2029

theorem hidden_of_disruptive {c : Char} (h : Disruptive c) : hidden c = true := by
  rcases h with hlow | hhigh | hseparator
  · exact hidden_of_control (Or.inl hlow)
  · exact hidden_of_control (Or.inr hhigh)
  · exact hidden_of_separator hseparator

theorem not_disruptive {c : Char} (h : hidden c = false) : ¬Disruptive c := by
  intro hdisruptive
  rw [hidden_of_disruptive hdisruptive] at h
  cases h

theorem Clear.not_disruptive (h : Clear w) : ∀ c ∈ w, ¬Disruptive c :=
  fun c hc => Text.not_disruptive (h c hc)

end Clear

end HostRegistry.Text
