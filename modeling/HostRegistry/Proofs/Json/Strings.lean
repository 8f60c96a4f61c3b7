import HostRegistry.Proofs.Json.Grammar

/-!
The string readers take exactly the strings of the grammar.

Between the quotation marks both readers run the same loop, so what it takes is described once, by
`Content`, for any reader of escapes.
-/

set_option autoImplicit false

namespace HostRegistry.Json
open Text (hexDigit?)

/-! ## Escapes -/

theorem toNat_ofNat {n : Nat} (h : n.isValidChar) : (Char.ofNat n).toNat = n := by
  rw [Char.ofNat, dif_pos h]
  exact BitVec.toNat_ofNatLT _ _

theorem hexDigit?_lt {c : Char} {n : Nat} (h : hexDigit? c = some n) : n < 16 := by
  have le_toNat : ∀ {a b : Char}, a ≤ b → a.toNat ≤ b.toNat := fun h => h
  unfold hexDigit? at h
  split at h
  next hc =>
    have := le_toNat hc.2
    cases h
    simp only [Char.reduceToNat] at *
    omega
  split at h
  next hc =>
    have := le_toNat hc.2
    cases h
    simp only [Char.reduceToNat] at *
    omega
  split at h
  next hc =>
    have := le_toNat hc.2
    cases h
    simp only [Char.reduceToNat] at *
    omega
  next => cases h

/-- Four digits stand for less than `2^16`. -/
theorem Hex.lt {w : List Char} {n : Nat} (h : Hex w n) : n < 0x10000 := by
  obtain ⟨a, b, c, d, -, h⟩ := h
  simp only [hexValue?, Option.bind_eq_bind, Option.bind_eq_some_iff, Option.pure_def,
    Option.some.injEq] at h
  obtain ⟨a', ha, b', hb, c', hc, d', hd, rfl⟩ := h
  have := hexDigit?_lt ha
  have := hexDigit?_lt hb
  have := hexDigit?_lt hc
  have := hexDigit?_lt hd
  omega

/-- No character is a half of a surrogate pair. -/
theorem not_surrogate (c : Char) : ¬ HighSurrogate c.toNat ∧ ¬ LowSurrogate c.toNat := by
  have hvalid : c.toNat < 0xD800 ∨ 0xDFFF < c.toNat ∧ c.toNat < 0x110000 := c.valid
  simp only [HighSurrogate, LowSurrogate]
  omega

theorem takes_readHex_iff {s rest : List Char} {n : Nat} :
    Takes readHex s n rest ↔ ∃ w, Hex w n ∧ s = w ++ rest := by
  constructor
  · rintro ⟨hlt, hread⟩
    unfold readHex at hread
    split at hread
    next a b c d r =>
      split at hread
      next m hm =>
        cases hread
        exact ⟨_, ⟨a, b, c, d, rfl, hm⟩, rfl⟩
      next => cases hread
    next => cases hread
  · rintro ⟨_, ⟨a, b, c, d, rfl, hn⟩, rfl⟩
    refine ⟨by simp only [List.length_append, List.length_cons]; omega, ?_⟩
    simp only [List.cons_append, List.nil_append, readHex, hn]

theorem takes_readLowSurrogate_iff {s rest : List Char} {high : Nat} {c : Char}
    (hhigh : HighSurrogate high) :
    Takes (readLowSurrogate high) s c rest ↔ ∃ w low, Hex w low ∧ LowSurrogate low ∧
      c.toNat = 0x10000 + (high - 0xD800) * 0x400 + (low - 0xDC00) ∧
      s = '\\' :: 'u' :: (w ++ rest) := by
  have hvalid : ∀ low, LowSurrogate low →
      (0x10000 + (high - 0xD800) * 0x400 + (low - 0xDC00)).isValidChar := by
    intro low hlow
    simp only [HighSurrogate, LowSurrogate] at hhigh hlow
    exact Or.inr (by omega)
  constructor
  · rintro ⟨hlt, hread⟩
    unfold readLowSurrogate at hread
    split at hread
    next r =>
      split at hread
      next => cases hread
      next low mid hhex =>
        split at hread
        next hlow =>
          simp only [Except.ok.injEq, Prod.mk.injEq, Subtype.mk.injEq] at hread
          obtain ⟨rfl, rfl⟩ := hread
          obtain ⟨w, hw, hr⟩ := takes_readHex_iff.mp ⟨mid.2, hhex⟩
          exact ⟨w, low, hw, hlow, toNat_ofNat (hvalid low hlow), by rw [← hr]⟩
        next => cases hread
    next => cases hread
    next => cases hread
    next => cases hread
  · rintro ⟨w, low, hw, hlow, hc, rfl⟩
    obtain ⟨hlt, hread⟩ : Takes readHex (w ++ rest) _ rest := takes_readHex_iff.mpr ⟨w, hw, rfl⟩
    refine ⟨by simp only [List.length_cons]; omega, ?_⟩
    have hlow' : 0xDC00 ≤ low ∧ low ≤ 0xDFFF := hlow
    simp only [readLowSurrogate, hread, hlow', and_self, if_true, ← hc, Char.ofNat_toNat]

/-- The escapes with digits are read from after their first letter on. -/
theorem takes_readCode_iff {s rest : List Char} {c : Char} :
    Takes readCode s c rest ↔ ∃ e, Escapes ('u' :: e) c ∧ s = e ++ rest := by
  constructor
  · rintro ⟨hlt, hread⟩
    unfold readCode at hread
    split at hread
    next => cases hread
    next n mid hhex =>
      obtain ⟨w, hw, hs⟩ := takes_readHex_iff.mp ⟨mid.2, hhex⟩
      split at hread
      next => cases hread
      next hlow =>
        split at hread
        next hhigh =>
          split at hread
          next => cases hread
          next c' mid' hpair =>
            cases hread
            obtain ⟨w', low, hw', hlow, hc, heq⟩ :=
              (takes_readLowSurrogate_iff hhigh).mp ⟨_, hpair⟩
            refine ⟨_, .pair hw hw' hhigh hlow hc, ?_⟩
            simp only [hs, heq, List.cons_append, List.append_assoc]
        next hhigh =>
          cases hread
          have hvalid : n.isValidChar := by
            have := hw.lt
            simp only [Nat.isValidChar]
            omega
          exact ⟨_, .code ((toNat_ofNat hvalid).symm ▸ hw), hs⟩
  · rintro ⟨e, he, rfl⟩
    cases he with
    | letter h => cases h
    | code hw =>
      obtain ⟨hlt, hread⟩ : Takes readHex (e ++ rest) _ rest := takes_readHex_iff.mpr ⟨e, hw, rfl⟩
      obtain ⟨hhigh, hlow⟩ := not_surrogate c
      simp only [HighSurrogate, LowSurrogate] at hhigh hlow
      refine ⟨hlt, ?_⟩
      simp only [readCode, hread, hhigh, hlow, if_false, Char.ofNat_toNat]
    | @pair w w' high low _ hw hw' hhigh hlow hc =>
      obtain ⟨hlt', hread'⟩ : Takes (readLowSurrogate high) ('\\' :: 'u' :: (w' ++ rest)) c rest :=
        (takes_readLowSurrogate_iff hhigh).mpr ⟨w', low, hw', hlow, hc, rfl⟩
      obtain ⟨hlt, hread⟩ := takes_readHex_iff.mpr ⟨w, hw, rfl⟩
      have hnotlow : ¬ (0xDC00 ≤ high ∧ high ≤ 0xDFFF) := by
        simp only [HighSurrogate] at hhigh
        omega
      have hhigh' : 0xD800 ≤ high ∧ high ≤ 0xDBFF := hhigh
      rw [List.append_assoc]
      refine ⟨Nat.lt_trans hlt' hlt, ?_⟩
      simp only [readCode, List.cons_append, hread, hnotlow, if_false, hhigh', and_self, if_true,
        hread']

theorem takes_readEscape_iff {s rest : List Char} {c : Char} :
    Takes readEscape s c rest ↔ ∃ e, Escapes e c ∧ s = e ++ rest := by
  constructor
  · rintro ⟨hlt, hread⟩
    unfold readEscape at hread
    split at hread
    next => cases hread
    next l r =>
      split at hread
      next hl =>
        subst hl
        split at hread
        next => cases hread
        next x mid hcode =>
          cases hread
          obtain ⟨e, he, hr⟩ := takes_readCode_iff.mp ⟨mid.2, hcode⟩
          exact ⟨_, he, congrArg _ hr⟩
      next =>
        split at hread
        next x hx =>
          cases hread
          exact ⟨[l], .letter hx, rfl⟩
        next => cases hread
  · rintro ⟨e, he, rfl⟩
    -- The escapes with digits all start with the letter that the reader looks for first.
    have code : ∀ {w : List Char}, Escapes ('u' :: w) c →
        Takes readEscape ('u' :: (w ++ rest)) c rest := by
      intro w hw
      obtain ⟨hlt, hread⟩ : Takes readCode (w ++ rest) c rest := takes_readCode_iff.mpr ⟨w, hw, rfl⟩
      exact ⟨Nat.lt_succ_of_lt hlt, by simp only [readEscape, if_true, hread]⟩
    cases he with
    | @letter l _ h =>
      have hu : l ≠ 'u' := by
        rintro rfl
        cases h
      exact takes_escape_letter hu h rest
    | code hw => exact code (.code hw)
    | pair hw hw' hhigh hlow hc => exact code (.pair hw hw' hhigh hlow hc)

theorem takes_skipEscape_iff {s rest : List Char} {x : Unit} :
    Takes skipEscape s x rest ↔ ∃ e, EscapeForm e ∧ s = e ++ rest := by
  constructor
  · rintro ⟨hlt, hread⟩
    unfold skipEscape at hread
    split at hread
    next => cases hread
    next l r =>
      split at hread
      next hl =>
        subst hl
        split at hread
        next => cases hread
        next n mid hhex =>
          cases hread
          obtain ⟨w, hw, hr⟩ := takes_readHex_iff.mp ⟨mid.2, hhex⟩
          exact ⟨_, .code hw, congrArg _ hr⟩
      next =>
        split at hread
        next c hc =>
          cases hread
          exact ⟨[l], .letter hc, rfl⟩
        next => cases hread
  · rintro ⟨e, he, rfl⟩
    cases he with
    | @letter l c h =>
      have hu : l ≠ 'u' := by
        rintro rfl
        cases h
      exact ⟨Nat.lt_succ_self _, by
        simp only [List.singleton_append, skipEscape, hu, if_false, h]⟩
    | @code w n hw =>
      obtain ⟨hlt, hread⟩ : Takes readHex (w ++ rest) _ rest := takes_readHex_iff.mpr ⟨w, hw, rfl⟩
      exact ⟨Nat.lt_succ_of_lt hlt, by
        simp only [List.cons_append, skipEscape, if_true, hread]⟩

/-! ## Between quotation marks -/

/-- What the loop makes of the characters up to the closing quotation mark, given the characters it
read before. -/
inductive Content {α : Type} (Escape : List Char → α → Prop) (put : α → List Char → List Char) :
    List Char → List Char → List Char → Prop
  | done {sofar : List Char} : Content Escape put sofar [] sofar
  | plain {c : Char} {sofar w final : List Char} (h : Plain c)
      (hw : Content Escape put (c :: sofar) w final) : Content Escape put sofar (c :: w) final
  | escape {x : α} {sofar e w final : List Char} (h : Escape e x)
      (hw : Content Escape put (put x sofar) w final) :
      Content Escape put sofar ('\\' :: (e ++ w)) final

section Loop

variable {α : Type} {escape : Reader α} {put : α → List Char → List Char}
  {Escape : List Char → α → Prop}

/-- The loop takes what it is described to take. -/
theorem Content.readQuotedFrom
    (hescape : ∀ {s rest x}, Takes escape s x rest ↔ ∃ e, Escape e x ∧ s = e ++ rest)
    {start sofar w final : List Char} (hw : Content Escape put sofar w final) (rest : List Char)
    (h : (w ++ '"' :: rest).length ≤ start.length) :
    ∃ hr, Json.readQuotedFrom escape put start sofar (w ++ '"' :: rest) h =
      .ok (final, ⟨rest, hr⟩) := by
  induction hw with
  | done => exact ⟨h, by simp only [List.nil_append, Json.readQuotedFrom, if_true]⟩
  | plain hc _ ih =>
    obtain ⟨hr, hread⟩ := ih (Nat.le_of_lt h)
    refine ⟨hr, ?_⟩
    simp only [List.cons_append, Json.readQuotedFrom, hc.1, hc.2.1, hc.2.2, if_false, hread]
  | @escape x sofar e w final he _ ih =>
    obtain ⟨hlt, htaken⟩ : Takes escape (e ++ (w ++ '"' :: rest)) x (w ++ '"' :: rest) :=
      hescape.mpr ⟨e, he, rfl⟩
    have hle : (w ++ '"' :: rest).length ≤ start.length := by
      simp only [List.cons_append, List.append_assoc, List.length_cons] at h hlt
      omega
    obtain ⟨hr, hread⟩ := ih hle
    refine ⟨hr, ?_⟩
    simp only [List.cons_append, List.append_assoc]
    rw [Json.readQuotedFrom]
    simp only [Char.reduceEq, if_false, if_true, htaken, hread]

/-- The loop takes nothing else. -/
theorem content_of_readQuotedFrom
    (hescape : ∀ {s rest x}, Takes escape s x rest ↔ ∃ e, Escape e x ∧ s = e ++ rest)
    {start sofar s final rest : List Char} {h : s.length ≤ start.length}
    {hr : rest.length < start.length}
    (hread : readQuotedFrom escape put start sofar s h = .ok (final, ⟨rest, hr⟩)) :
    ∃ w, Content Escape put sofar w final ∧ s = w ++ '"' :: rest := by
  fun_induction readQuotedFrom escape put start sofar s h with
  | case1 => cases hread
  | case2 sofar r h =>
    cases hread
    exact ⟨[], .done, rfl⟩
  | case3 => cases hread
  | case4 sofar r x mid he _ _ h ih =>
    obtain ⟨w, hw, hmid⟩ := ih hread
    obtain ⟨e, he, hr⟩ := hescape.mp ⟨mid.2, he⟩
    exact ⟨_, .escape he hw, by rw [hr, hmid, List.cons_append, List.append_assoc]⟩
  | case5 => cases hread
  | case6 sofar c r _ hquote hslash hlow _ ih =>
    obtain ⟨w, hw, rfl⟩ := ih hread
    exact ⟨c :: w, .plain ⟨hquote, hslash, hlow⟩ hw, rfl⟩

end Loop

/-! ## Strings -/

theorem content_iff_spells {sofar w final : List Char} :
    Content Escapes (· :: ·) sofar w final ↔ ∃ cs, Spells w cs ∧ final = cs.reverse ++ sofar := by
  constructor
  · intro h
    induction h with
    | done => exact ⟨[], .nil, rfl⟩
    | plain hc _ ih =>
      obtain ⟨cs, hcs, rfl⟩ := ih
      exact ⟨_, .plain hc hcs, by rw [List.reverse_cons, List.append_assoc]; rfl⟩
    | escape he _ ih =>
      obtain ⟨cs, hcs, rfl⟩ := ih
      exact ⟨_, .escape he hcs, by rw [List.reverse_cons, List.append_assoc]; rfl⟩
  · rintro ⟨cs, hcs, rfl⟩
    induction hcs generalizing sofar with
    | nil => exact .done
    | plain hc _ ih =>
      rw [List.reverse_cons, List.append_assoc]
      exact .plain hc ih
    | escape he _ ih =>
      rw [List.reverse_cons, List.append_assoc]
      exact .escape he ih

theorem content_iff_stringForm {sofar w : List Char} :
    (∃ final, Content (fun e (_ : Unit) => EscapeForm e) (fun _ sofar => sofar) sofar w final) ↔
      StringForm w := by
  constructor
  · rintro ⟨final, h⟩
    induction h with
    | done => exact .nil
    | plain hc _ ih => exact .plain hc ih
    | escape he _ ih => exact .escape he ih
  · intro h
    induction h generalizing sofar with
    | nil => exact ⟨sofar, .done⟩
    | plain hc _ ih =>
      obtain ⟨final, hfinal⟩ := ih
      exact ⟨final, .plain hc hfinal⟩
    | escape he _ ih =>
      obtain ⟨final, hfinal⟩ := ih
      exact ⟨final, .escape (x := ()) he hfinal⟩

theorem takes_readString_iff {s rest : List Char} {text : String} :
    Takes readString s text rest ↔ ∃ u, Spells u text.toList ∧ s = u ++ '"' :: rest := by
  constructor
  · rintro ⟨hlt, hread⟩
    unfold readString at hread
    split at hread
    next => cases hread
    next sofar mid hcontent =>
      cases hread
      obtain ⟨w, hw, hs⟩ := content_of_readQuotedFrom takes_readEscape_iff hcontent
      obtain ⟨cs, hcs, rfl⟩ := content_iff_spells.mp hw
      refine ⟨w, ?_, hs⟩
      rwa [List.append_nil, List.reverse_reverse, String.toList_ofList]
  · rintro ⟨u, hu, rfl⟩
    have hcontent := content_iff_spells.mpr ⟨text.toList, hu, (List.append_nil _).symm⟩
    obtain ⟨hr, hread⟩ := hcontent.readQuotedFrom takes_readEscape_iff rest (Nat.le_refl _)
    refine ⟨hr, ?_⟩
    simp only [readString, hread, List.reverse_reverse, String.ofList_toList]

theorem takes_skipString_iff {s rest : List Char} {x : Unit} :
    Takes skipString s x rest ↔ ∃ u, StringForm u ∧ s = u ++ '"' :: rest := by
  constructor
  · rintro ⟨hlt, hread⟩
    unfold skipString at hread
    split at hread
    next => cases hread
    next sofar mid hcontent =>
      cases hread
      obtain ⟨w, hw, hs⟩ := content_of_readQuotedFrom takes_skipEscape_iff hcontent
      exact ⟨w, content_iff_stringForm.mp ⟨_, hw⟩, hs⟩
  · rintro ⟨u, hu, rfl⟩
    obtain ⟨final, hcontent⟩ : ∃ final, Content (fun e (_ : Unit) => EscapeForm e)
        (fun _ sofar => sofar) [] u final := content_iff_stringForm.mpr hu
    obtain ⟨hr, hread⟩ := hcontent.readQuotedFrom takes_skipEscape_iff rest (Nat.le_refl _)
    refine ⟨hr, ?_⟩
    simp only [skipString, hread]

end HostRegistry.Json
